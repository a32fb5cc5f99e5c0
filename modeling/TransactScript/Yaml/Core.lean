import TransactScript.Document.Node
import TransactScript.Number.Reading

/-!
What the text of a scalar denotes by the core rules: null, a truth value, a number, or itself.
-/

namespace TransactScript.Yaml

open Number
open TransactScript.Document (Datum)

def isNull (s : String) : Bool :=
  s == "" || s == "~" || s == "null" || s == "Null" || s == "NULL"

def bool? (s : String) : Option Bool :=
  if s == "true" || s == "True" || s == "TRUE" then some true
  else if s == "false" || s == "False" || s == "FALSE" then some false
  else none

def startsSigned : List Char → Bool
  | c :: _ => c == '+' || c == '-'
  | [] => false

def isZeroLed (cs : List Char) : Bool :=
  match (leadingSign cs).2 with
  | '0' :: d :: ds => (d :: ds).all Char.isDigit
  | _ => false

def marked? : List Char → Option (Nat × List Char)
  | '0' :: 'x' :: cs => some (16, cs)
  | '0' :: 'o' :: cs => some (8, cs)
  | '0' :: 'b' :: cs => some (2, cs)
  | _ => none

def dropPlus : List Char → List Char
  | '+' :: cs => cs
  | cs => cs

def natural? (cs : List Char) : Option Nat :=
  match (marked? (dropPlus cs)).bind fun (base, ds) => Text.natural? base ds with
  | some n => some n
  | none => if isZeroLed cs then none else Text.natural? 10 (dropPlus cs)

def negated? : List Char → Option Nat
  | '-' :: cs =>
      match (marked? cs).bind fun (base, ds) => Text.natural? base ds with
      | some n => some n
      | none => if isZeroLed cs then none else Text.natural? 10 cs
  | _ => none

def wordSize : Nat := 18446744073709551616

def word? (s : String) : Option Nat :=
  (natural? s.toList).filter (· < wordSize)

def wideSize : Nat := wordSize * wordSize

def integer? (s : String) : Option (Option Datum) :=
  match natural? s.toList, negated? s.toList with
  | some n, _ => if n < wordSize then some (some (.natural n)) else if n < wideSize then some none else none
  | none, some n =>
      if 2 * n ≤ wordSize then some (some (.signed (-(n : Int))))
      else if 2 * n ≤ wideSize then some none else none
  | none, none => none

def infinityWords : List String := [".inf", ".Inf", ".INF"]

def nanWords : List String := [".nan", ".NaN", ".NAN"]

def real? (s : String) : Option Binary :=
  let unsigned := dropPlus s.toList
  if unsigned ≠ s.toList ∧ startsSigned unsigned then none
  else if infinityWords.contains (String.ofList unsigned) then some (.infinite false)
  else if infinityWords.any fun w => s == "-" ++ w then some (.infinite true)
  else if nanWords.contains s then some .nan
  else (Format.double.read? (String.ofList unsigned)).filter Binary.isFinite

def plainDatum? (s : String) : Option Datum :=
  if isNull s then some .null
  else match bool? s with
    | some b => some (.bool b)
    | none =>
        match integer? s with
        | some d => d
        | none =>
            match if isZeroLed s.toList then none else real? s with
            | some x => some (.real x)
            | none => some (.text s)

end TransactScript.Yaml
