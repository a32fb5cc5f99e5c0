import TransactScript.Column
import TransactScript.Event

/-!
The column list of a section under construction: an ordered set of columns told apart by name, which
is closed once and then stays as it is.
-/

namespace TransactScript

structure ColumnList (α : Type) where
  label : String
  columns : List α
  finalized : Bool
deriving DecidableEq, Repr

namespace ColumnList

variable {α : Type} [Named α]

def empty (label : String) : ColumnList α :=
  ⟨label, [], false⟩

def names (l : ColumnList α) : List ColumnName :=
  l.columns.map Named.name

def contains (l : ColumnList α) (name : String) : Bool :=
  l.names.any fun n => n.text == name

def isEmpty (l : ColumnList α) : Bool :=
  l.columns.isEmpty

def ensureOpen (l : ColumnList α) : Except Fault Unit :=
  if l.finalized then .error (.sectionFinalized l.label) else .ok ()

def insert (l : ColumnList α) (column : α) : Logged (ColumnList α) := do
  l.ensureOpen
  let name := Named.name column
  if l.contains name.text then Logged.fail (.duplicateColumn l.label name.text)
  Logged.report (.columnAdded l.label name)
  pure { l with columns := l.columns ++ [column] }

def finalize (l : ColumnList α) : Except Fault (ColumnList α) := do
  l.ensureOpen
  pure { l with finalized := true }

end ColumnList

end TransactScript
