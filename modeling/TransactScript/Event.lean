import TransactScript.Fault
import TransactScript.Name
import TransactScript.Text.Numeral

/-!
What the library reports while it works. An operation that fails keeps what it reported before.
-/

namespace TransactScript

inductive SectionKind where
  | tableVariable | insertData
deriving DecidableEq, Repr

def SectionKind.text : SectionKind → String
  | tableVariable => "table variable"
  | insertData => "insert data"

inductive Level where
  | trace | debug
deriving DecidableEq, Repr

inductive Event where
  | columnAdded (label : String) (column : ColumnName)
  | propertySkipped (label : String) (column : ColumnName)
  | dataStarted (label : String)
  | sectionRegistered (number : Nat) (kind : SectionKind)
  | rowsSplit (head : String) (rows batch : Nat)
  | blankQuerySkipped (head : String)
deriving DecidableEq, Repr

namespace Event

def level : Event → Level
  | columnAdded .. | dataStarted _ => .trace
  | propertySkipped .. | sectionRegistered .. | rowsSplit .. | blankQuerySkipped _ => .debug

def message : Event → String
  | columnAdded label column => "section " ++ label ++ ": column " ++ column.text ++ " added"
  | propertySkipped label column =>
      "section " ++ label ++ ": column " ++ column.text ++ " already defined, skipping property"
  | dataStarted label => "section " ++ label ++ ": data definition started"
  | sectionRegistered number kind =>
      "section #" ++ Text.numeral number ++ " (" ++ kind.text ++ ") registered"
  | rowsSplit head rows batch =>
      head ++ ": splitting " ++ Text.numeral rows ++ " rows into batches of " ++ Text.numeral batch
  | blankQuerySkipped head => head ++ ": blank query source skipped"

end Event

structure Logged (α : Type) where
  outcome : Except Fault α
  events : List Event

namespace Logged

def ofExcept {α : Type} (outcome : Except Fault α) : Logged α :=
  ⟨outcome, []⟩

def fail {α : Type} (fault : Fault) : Logged α :=
  ⟨.error fault, []⟩

def report (event : Event) : Logged Unit :=
  ⟨.ok (), [event]⟩

def andThen {α β : Type} (x : Logged α) (f : α → Logged β) : Logged β :=
  match x.outcome with
  | .ok a => ⟨(f a).outcome, x.events ++ (f a).events⟩
  | .error fault => ⟨.error fault, x.events⟩

instance : Monad Logged where
  pure a := ⟨.ok a, []⟩
  bind := andThen

instance : MonadLift (Except Fault) Logged where
  monadLift := ofExcept

end Logged

end TransactScript
