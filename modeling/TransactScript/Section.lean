import TransactScript.Column
import TransactScript.Event
import TransactScript.Literal

/-!
Finished sections of a script: declarations of table variables, and inserts with the sources of their
rows.
-/

namespace TransactScript

structure TableVariable where
  name : VariableName
  columns : List TableColumn
  schema : Option String
deriving DecidableEq, Repr

def TableVariable.primaryKey (t : TableVariable) : List TableColumn :=
  t.columns.filter (·.isPrimaryKey)

inductive Source where
  | values (row : List Literal)
  | rows (rows : List (List Literal))
  | query (text : String)
deriving DecidableEq, Repr

structure InsertData where
  destination : Destination
  columns : List Column
  sources : List Source
deriving DecidableEq, Repr

inductive Section where
  | tableVariable (table : TableVariable)
  | insertData (insert : InsertData)
deriving DecidableEq, Repr

namespace Section

def kind : Section → SectionKind
  | tableVariable _ => .tableVariable
  | insertData _ => .insertData

def declaredVariable? : Section → Option VariableName
  | tableVariable t => some t.name
  | insertData _ => none

end Section

end TransactScript
