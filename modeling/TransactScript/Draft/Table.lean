import TransactScript.Draft.Insert

/-!
A table variable under construction.
-/

namespace TransactScript

structure TableDraft where
  name : VariableName
  schema : Option Schema
  list : ColumnList TableColumn
deriving DecidableEq, Repr

namespace TableDraft

def start (name : VariableName) (schema : Option Schema) : TableDraft :=
  ⟨name, schema, .empty name.text⟩

def boundSchema (d : TableDraft) : Except Fault Schema :=
  match d.schema with
  | some s => .ok s
  | none => .error (.schemaNotBound d.name.text)

def add (d : TableDraft) (c : TableColumn) : Logged TableDraft := do
  let list ← d.list.insert c
  pure { d with list := list }

def column (d : TableDraft) (name : String) (type : ColumnType) (allowNull isPrimaryKey : Bool) :
    Logged TableDraft := do
  d.add (← TableColumn.ofText name type allowNull isPrimaryKey)

def propertyColumn (d : TableDraft) (property : String) (type : Option ColumnType)
    (allowNull : Option Bool) (isPrimaryKey : Bool) : Logged TableDraft := do
  let p ← (← d.boundSchema).property property
  d.add (← TableColumn.infer p type allowNull isPrimaryKey)

def addUnlessPresent (d : TableDraft) (c : TableColumn) : Logged TableDraft :=
  if d.list.contains c.name.text then do
    Logged.report (.propertySkipped d.name.text c.name)
    pure d
  else d.add c

def generateWith (d : TableDraft) (columnOf : Property → Except Fault TableColumn) :
    Logged TableDraft := do
  (← d.boundSchema).properties.foldlM (fun d p => do d.addUnlessPresent (← columnOf p)) d

def generate (d : TableDraft) : Logged TableDraft :=
  d.generateWith TableColumn.ofProperty

def finalize (d : TableDraft) (script : Script) : Logged Script := do
  if d.list.isEmpty then Logged.fail (.emptyTableVariable d.name.text)
  let list ← d.list.finalize
  script.register (.tableVariable ⟨d.name, list.columns, d.schema.map (·.name)⟩)

def seed (d : TableDraft) : List Column :=
  if d.schema.isSome then d.list.columns.map TableColumn.toColumn else []

def insertStart (d : TableDraft) : InsertDraft :=
  .start (.tableVariable d.name) d.schema

end TableDraft

end TransactScript
