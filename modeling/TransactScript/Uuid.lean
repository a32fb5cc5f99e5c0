import TransactScript.Text.Numeral

/-!
Universally unique identifiers: sixteen octets, written in five groups of digits.
-/

namespace TransactScript

structure Uuid where
  octets : List UInt8
  length_eq : octets.length = 16
deriving DecidableEq, Repr

namespace Uuid

def ofOctets? (octets : List UInt8) : Option Uuid :=
  if h : octets.length = 16 then some ⟨octets, h⟩ else none

def groups : List Nat := [4, 2, 2, 2]

def grouped : List Nat → List UInt8 → List Char
  | [], octets => octets.flatMap (Text.octetDigits Text.lowerHexDigit)
  | n :: ns, octets =>
      (octets.take n).flatMap (Text.octetDigits Text.lowerHexDigit) ++ '-' :: grouped ns (octets.drop n)

def text (u : Uuid) : String :=
  String.ofList (grouped groups u.octets)

end Uuid

end TransactScript
