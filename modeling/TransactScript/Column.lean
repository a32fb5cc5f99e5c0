import TransactScript.Name
import TransactScript.Schema

/-!
Columns of an insert and of a declared table, given outright or inferred from a property.
-/

namespace TransactScript

structure Column where
  name : ColumnName
  type : ColumnType
deriving DecidableEq, Repr

structure TableColumn where
  name : ColumnName
  type : ColumnType
  allowNull : Bool
  isPrimaryKey : Bool
deriving DecidableEq, Repr

class Named (α : Type) where
  name : α → ColumnName

instance : Named Column := ⟨Column.name⟩

instance : Named TableColumn := ⟨TableColumn.name⟩

namespace Column

def ofText (name : String) (type : ColumnType) : Except Fault Column :=
  (Identifier.parse name).map fun n => ⟨n, type⟩

def infer (p : Property) (type : Option ColumnType) : Except Fault Column := do
  let type ← match type with
    | some t => pure t
    | none => p.hostType.columnType
  ofText p.name type

def ofProperty (p : Property) : Except Fault Column :=
  infer p none

end Column

namespace TableColumn

def ofText (name : String) (type : ColumnType) (allowNull isPrimaryKey : Bool) :
    Except Fault TableColumn :=
  (Identifier.parse name).map fun n => ⟨n, type, allowNull, isPrimaryKey⟩

def infer (p : Property) (type : Option ColumnType) (allowNull : Option Bool) (isPrimaryKey : Bool) :
    Except Fault TableColumn := do
  let type ← match type with
    | some t => pure t
    | none => p.hostType.columnType
  ofText p.name type (allowNull.getD p.hostType.nullable) isPrimaryKey

def ofProperty (p : Property) : Except Fault TableColumn :=
  infer p none none false

def toColumn (c : TableColumn) : Column :=
  ⟨c.name, c.type⟩

end TableColumn

end TransactScript
