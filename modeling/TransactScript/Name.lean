import TransactScript.Fault
import TransactScript.Text.Blank

/-!
Names of columns, tables and table variables. A name is one or more letters, digits and underscores;
a variable is written with one `@` in front of its name. Reading checks a text once, and the types keep
what was checked.
-/

namespace TransactScript

def isNameChar (c : Char) : Bool :=
  c.isAlphanum || c == '_'

def IsName (cs : List Char) : Prop :=
  cs ≠ [] ∧ ∀ c ∈ cs, isNameChar c = true

instance (cs : List Char) : Decidable (IsName cs) :=
  @instDecidableAnd _ _ inferInstance (List.decidableBAll (fun c => isNameChar c = true) cs)

structure Identifier where
  text : String
  valid : IsName text.toList
deriving DecidableEq, Repr

abbrev ColumnName := Identifier

abbrev TableName := Identifier

namespace Identifier

def blankReason : String := "name cannot be empty or consist entirely of whitespace"

def characterReason : String := "name can only contain letters, numbers and underscores"

def parseWithin (whole body : String) : Except Fault Identifier :=
  if Text.isBlankText body then .error (.invalidIdentifier whole blankReason)
  else if h : IsName body.toList then .ok ⟨body, h⟩
  else .error (.invalidIdentifier whole characterReason)

def parse (raw : String) : Except Fault Identifier :=
  parseWithin raw raw

end Identifier

def sigil : Char := '@'

structure VariableName where
  bare : Identifier
deriving DecidableEq, Repr

namespace VariableName

def text (v : VariableName) : String :=
  "@" ++ v.bare.text

def sigilReason : String := "variable name must not start with two or more '@' signs"

def body (raw : String) : List Char :=
  match raw.toList with
  | [] => []
  | c :: cs => if c = sigil then cs else c :: cs

def parse (raw : String) : Except Fault VariableName :=
  if Text.isBlankText raw then .error (.invalidIdentifier raw Identifier.blankReason)
  else if (body raw).head? = some sigil then .error (.invalidIdentifier raw sigilReason)
  else (Identifier.parseWithin raw (String.ofList (body raw))).map VariableName.mk

end VariableName

inductive Destination where
  | table (name : TableName)
  | tableVariable (name : VariableName)
deriving DecidableEq, Repr

namespace Destination

def text : Destination → String
  | table name => name.text
  | tableVariable name => name.text

def isVariable : Destination → Bool
  | table _ => false
  | tableVariable _ => true

def parse (raw : String) : Except Fault Destination :=
  if raw.toList.head? = some sigil then (VariableName.parse raw).map tableVariable
  else (Identifier.parse raw).map table

end Destination

end TransactScript
