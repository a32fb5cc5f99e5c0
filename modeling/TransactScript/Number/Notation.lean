import TransactScript.Number.Shortest
import TransactScript.Text.Numeral

/-!
Decimal notations of binary numbers, from their shortest digits.
-/

namespace TransactScript.Number

def Decimal.pointAt (d : Decimal) : Int :=
  (Nat.toDigits 10 d.digits).length + d.exponent

def Decimal.positional (d : Decimal) : String :=
  let digits := Nat.toDigits 10 d.digits
  match d.exponent with
  | .ofNat k => String.ofList (digits ++ List.replicate k '0')
  | .negSucc k =>
      let padded := List.replicate (k + 2 - digits.length) '0' ++ digits
      let whole := padded.length - (k + 1)
      String.ofList (padded.take whole ++ '.' :: padded.drop whole)

def Decimal.scientific (d : Decimal) : String :=
  let exponent := d.pointAt - 1
  let mantissa := match Nat.toDigits 10 d.digits with
    | [] => ""
    | [c] => String.ofList [c]
    | c :: cs => String.ofList (c :: '.' :: cs)
  mantissa ++ "e" ++ (if exponent < 0 then "-" else "+") ++ Text.numeral exponent.natAbs

def withSign (negative : Bool) (s : String) : String :=
  if negative then "-" ++ s else s

def Binary.positional? (f : Format) : Binary → Option String
  | .finite s m e =>
      some (withSign s (if m = 0 then "0" else (shortest f .upward m e).positional))
  | _ => none

end TransactScript.Number
