import TransactScript.Number.Binary
import TransactScript.Text.Case
import TransactScript.Text.Numeral

/-!
Reading a binary number from decimal text: a sign, digits with at most one point among or beside them,
and an exponent; or the words for infinity and for what is not a number, in any case.
-/

namespace TransactScript.Number

def digitRun (cs : List Char) : List Char × List Char :=
  (cs.takeWhile Char.isDigit, cs.dropWhile Char.isDigit)

def digitsValue (cs : List Char) : Nat :=
  cs.foldl (fun n c => n * 10 + (c.toNat - '0'.toNat)) 0

def leadingSign : List Char → Bool × List Char
  | '-' :: cs => (true, cs)
  | '+' :: cs => (false, cs)
  | cs => (false, cs)

def exponent? : List Char → Option Int
  | [] => some 0
  | c :: cs =>
      if c = 'e' ∨ c = 'E' then
        let (negative, digits) := leadingSign cs
        if digits ≠ [] ∧ digits.all Char.isDigit then
          some (if negative then -(digitsValue digits : Int) else digitsValue digits)
        else none
      else none

def unsignedDecimal? (cs : List Char) : Option (Nat × Int) :=
  let (whole, rest) := digitRun cs
  let (fraction, rest) := match rest with
    | '.' :: rest => digitRun rest
    | _ => ([], rest)
  if whole = [] ∧ fraction = [] then none
  else (exponent? rest).map fun e => (digitsValue (whole ++ fraction), e - fraction.length)

def Format.read? (f : Format) (s : String) : Option Binary :=
  let (negative, body) := leadingSign s.toList
  match Text.lowerCase (String.ofList body) with
  | "inf" | "infinity" => some (.infinite negative)
  | "nan" => some .nan
  | _ => (unsignedDecimal? body).map fun (digits, e) => f.ofDecimal negative digits e

end TransactScript.Number
