import TransactScript.ColumnList
import TransactScript.Script

/-!
An insert under construction. Columns come first; from the first source of rows on, the columns are
frozen.
-/

namespace TransactScript

inductive Phase where
  | columns | data
deriving DecidableEq, Repr

structure InsertDraft where
  destination : Destination
  schema : Option Schema
  list : ColumnList Column
  phase : Phase
  sources : List Source
deriving DecidableEq, Repr

namespace InsertDraft

def start (destination : Destination) (schema : Option Schema) : InsertDraft :=
  ⟨destination, schema, .empty destination.text, .columns, []⟩

def isDataDefining (d : InsertDraft) : Bool :=
  d.phase = .data

def boundSchema (d : InsertDraft) : Except Fault Schema :=
  match d.schema with
  | some s => .ok s
  | none => .error (.schemaNotBound d.destination.text)

def add (d : InsertDraft) (c : Column) : Logged InsertDraft := do
  d.list.ensureOpen
  if d.isDataDefining then Logged.fail (.dataPopulationStarted d.list.label)
  let list ← d.list.insert c
  pure { d with list := list }

def addAll (d : InsertDraft) (cs : List Column) : Logged InsertDraft :=
  cs.foldlM add d

def column (d : InsertDraft) (name : String) (type : ColumnType) : Logged InsertDraft := do
  d.add (← Column.ofText name type)

def propertyColumn (d : InsertDraft) (property : String) (type : Option ColumnType) :
    Logged InsertDraft := do
  let p ← (← d.boundSchema).property property
  d.add (← Column.infer p type)

def addUnlessPresent (d : InsertDraft) (c : Column) : Logged InsertDraft :=
  if d.list.contains c.name.text then do
    Logged.report (.propertySkipped d.destination.text c.name)
    pure d
  else d.add c

def generateWith (d : InsertDraft) (columnOf : Property → Except Fault Column) :
    Logged InsertDraft := do
  (← d.boundSchema).properties.foldlM (fun d p => do d.addUnlessPresent (← columnOf p)) d

def generate (d : InsertDraft) : Logged InsertDraft :=
  d.generateWith Column.ofProperty

def define (d : InsertDraft) (source : Source) : Logged InsertDraft := do
  if d.phase = .columns then Logged.report (.dataStarted d.destination.text)
  pure { d with phase := .data, sources := d.sources ++ [source] }

def finalize (d : InsertDraft) (script : Script) : Logged Script := do
  let list ← d.list.finalize
  script.register (.insertData ⟨d.destination, list.columns, d.sources⟩)

end InsertDraft

end TransactScript
