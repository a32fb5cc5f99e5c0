import TransactScript.Number.Binary

/-!
What a decoder may ask of a node of a document, whatever the format of the document.
-/

namespace TransactScript.Document

open Number

inductive Datum where
  | null
  | bool (value : Bool)
  | natural (value : Nat)
  | signed (value : Int)
  | real (value : Binary)
  | text (value : String)
  | list (items : List Datum)
  | map (entries : List (Datum × Datum))
deriving Repr

inductive Parts (ν : Type) where
  | items (items : List ν)
  | pairs (pairs : List (ν × ν))

class Fallible (m : Type → Type) extends Monad m where
  fail : {α : Type} → m α

instance : Fallible Option where
  fail := none

def expect {m : Type → Type} [Fallible m] {α : Type} : Option α → m α
  | some a => pure a
  | none => Fallible.fail

/-- Each question fails if the node is not of the kind asked for. To ask may have an effect on what else
can be asked, for which `m` stands. A record has the named fields only, each at most once, and passes
over any other. A variant has a name and a content. -/
class Node (m : outParam (Type → Type)) (ν : Type) where
  text? : ν → m String
  bool? : ν → m Bool
  word? : ν → m UInt64
  items? : ν → m (List ν)
  entries? : ν → m (List (String × ν))
  record? : List String → ν → m (List (String × ν))
  variant? : ν → m (String × ν)
  parts? : ν → m (Parts ν)
  datum? : ν → m Datum

def knownFields? {α : Type} (fields : List String) (entries : List (String × α)) :
    Option (List (String × α)) :=
  let known := entries.filter fun e => fields.contains e.1
  if (known.map (·.1)).Nodup then some known else none

def lastValues {α : Type} (entries : List (String × α)) : List (String × α) :=
  entries.foldl (fun done e =>
    if done.any (·.1 == e.1) then done.map fun d => if d.1 == e.1 then e else d else done ++ [e]) []

end TransactScript.Document
