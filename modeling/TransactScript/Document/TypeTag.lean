import TransactScript.ColumnType
import TransactScript.Document.Node

/-!
Column types in documents: a tag names the type, and further fields give its parameters. A parameter
that is missing has its default.
-/

namespace TransactScript.Document

namespace Datum

def below? (bound : Nat) : Datum → Option Nat
  | natural n => if n < bound then some n else none
  | signed i => if 0 ≤ i ∧ i < bound then some i.toNat else none
  | _ => none

def octet? (d : Datum) : Option UInt8 :=
  (d.below? UInt8.size).map UInt8.ofNat

def length? : Datum → Option (Option UInt16)
  | null => some none
  | d => (d.below? UInt16.size).map fun n => some (UInt16.ofNat n)

def parameter? (names : List String) : Datum → Option (Option String)
  | text s => some (if names.contains s then some s else none)
  | natural i => some names[i]?
  | _ => none

end Datum

def parameters? (names : List String) (fields : List (Datum × Datum)) :
    Option (List (String × Datum)) := do
  let keyed ← fields.mapM fun (k, v) => (k.parameter? names).map fun name => (name, v)
  knownFields? names (keyed.filterMap fun (name, v) => name.map fun n => (n, v))

def parameterNames : ColumnType → List String
  | .plain _ => []
  | .decimal _ _ => ["precision", "scale"]
  | .string _ _ => ["length"]

def withParameters? (given : List (String × Datum)) : ColumnType → Option ColumnType
  | .plain kind => some (.plain kind)
  | .decimal precision scale => do
      let precision ← match given.lookup "precision" with
        | some d => d.octet?
        | none => some precision
      let scale ← match given.lookup "scale" with
        | some d => d.octet?
        | none => some scale
      pure (.decimal precision scale)
  | .string kind length => do
      let length ← match given.lookup "length" with
        | some d => d.length?
        | none => some length
      pure (.string kind length)

def tagged? : Datum → Option ColumnType
  | .text s => ColumnType.ofKeyword? s
  | .natural i => ColumnType.defaults[i]?
  | _ => none

def typeOfFields? (tag : Datum) (fields : List (Datum × Datum)) : Option ColumnType := do
  match ← tagged? tag with
  | .plain kind => pure (.plain kind)
  | t => withParameters? (← parameters? (parameterNames t) fields) t

def typeOfItems? (tag : Datum) (items : List Datum) : Option ColumnType := do
  let t ← tagged? tag
  if items.length ≤ (parameterNames t).length then withParameters? ((parameterNames t).zip items) t
  else none

end TransactScript.Document
