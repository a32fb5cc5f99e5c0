import TransactScript.Number.Binary

/-!
Values of JSON documents. Objects keep their entries as written, repeated keys included.
-/

namespace TransactScript

open Number

/-- An `unreadable` value is well formed as text but denotes nothing: a number beyond the range of
binary numbers, or a string or key with half a surrogate pair. A reader that passes over it does not
notice. -/
inductive Json where
  | null
  | bool (value : Bool)
  | integer (value : Int)
  | real (value : Binary)
  | string (value : String)
  | array (items : List Json)
  | object (entries : List (String × Json))
  | unreadable
deriving Repr

namespace Json

mutual

def depth? : Json → Option Nat
  | array items => (depthOfItems? items).map (· + 1)
  | object entries => (depthOfEntries? entries).map (· + 1)
  | unreadable => none
  | _ => some 0

def depthOfItems? : List Json → Option Nat
  | [] => some 0
  | j :: js => do pure (max (← depth? j) (← depthOfItems? js))

def depthOfEntries? : List (String × Json) → Option Nat
  | [] => some 0
  | (_, j) :: rest => do pure (max (← depth? j) (← depthOfEntries? rest))

end

def depthLimit : Nat := 127

def isReadableWithin (outer : Nat) (j : Json) : Bool :=
  match j.depth? with
  | some d => d + outer ≤ depthLimit
  | none => false

def ofOption {α : Type} (f : α → Json) : Option α → Json
  | some a => f a
  | none => null

end Json

end TransactScript
