import TransactScript.Json.Value

/-!
Numbers of JSON documents. A whole number of up to 64 bits is read exactly. For any other, the leading
digits are collected as long as they fit 64 bits, and that number is scaled by a power of ten, each
step being rounded.
-/

namespace TransactScript.Json

open Number

def wordSize : Nat := 18446744073709551616

structure Numeral where
  negative : Bool
  whole : List Nat
  fraction : List Nat
  exponent : Option Int
deriving DecidableEq, Repr

def absorb (n : Nat) : List Nat → Nat × List Nat
  | [] => (n, [])
  | d :: ds => if n * 10 + d < wordSize then absorb (n * 10 + d) ds else (n, d :: ds)

def powerOfTen (k : Nat) : Binary :=
  Format.double.round false (Nat.pow 10 k) 1

def greatestPower : Nat := 308

/-- Multiplies by ten to the power `e`, in steps of a power that is a finite number; a zero stays, and
what becomes infinite is refused. -/
def scale? (x : Binary) (e : Int) : Nat → Option Binary
  | 0 => some x
  | steps + 1 =>
      if e.natAbs ≤ greatestPower then
        let y := if 0 ≤ e then x.mul .double (powerOfTen e.natAbs) else x.div .double (powerOfTen e.natAbs)
        if y.isFinite then some y else none
      else if x.isZero then some x
      else if 0 ≤ e then none
      else scale? (x.div .double (powerOfTen greatestPower)) (e + greatestPower) steps

/-- Words are below `10 ^ 20`, so that few steps downward reach zero. -/
def scaleSteps : Nat := 4

def withSign (negative : Bool) : Binary → Binary
  | .finite s m e => .finite (s != negative) m e
  | x => x

namespace Numeral

def value (n : Numeral) : Json :=
  let (word, beyond) := absorb 0 n.whole
  let whole := beyond.isEmpty && n.fraction.isEmpty && n.exponent.isNone
  if whole && !n.negative then integer word
  else if whole && 0 < word && 2 * word ≤ wordSize then integer (-(word : Int))
  else
    let (word, unused) := absorb word n.fraction
    let e : Int := beyond.length - (n.fraction.length - unused.length : Nat) + n.exponent.getD 0
    match scale? (Format.double.round false word 1) e scaleSteps with
    | some x => real (withSign n.negative x)
    | none => unreadable

end Numeral

def digits (cs : List Char) : List Nat × List Char :=
  ((cs.takeWhile Char.isDigit).map fun c => c.toNat - '0'.toNat, cs.dropWhile Char.isDigit)

def whole? (cs : List Char) : Option (List Nat × List Char) :=
  match digits cs with
  | ([], _) => none
  | (0 :: _ :: _, _) => none
  | result => some result

def fraction? : List Char → Option (List Nat × List Char)
  | '.' :: cs =>
      match digits cs with
      | ([], _) => none
      | result => some result
  | cs => some ([], cs)

def exponentDigits? (negative : Bool) (cs : List Char) : Option (Option Int × List Char) :=
  match digits cs with
  | ([], _) => none
  | (ds, rest) =>
      let e : Int := (ds.foldl (fun n d => n * 10 + d) 0 : Nat)
      some (some (if negative then -e else e), rest)

def exponent? : List Char → Option (Option Int × List Char)
  | c :: cs =>
      if c = 'e' ∨ c = 'E' then
        match cs with
        | '-' :: cs => exponentDigits? true cs
        | '+' :: cs => exponentDigits? false cs
        | cs => exponentDigits? false cs
      else some (none, c :: cs)
  | [] => some (none, [])

def unsigned? (negative : Bool) (cs : List Char) : Option (Json × List Char) := do
  let (whole, cs) ← whole? cs
  let (fraction, cs) ← fraction? cs
  let (exponent, cs) ← exponent? cs
  pure ((Numeral.mk negative whole fraction exponent).value, cs)

def number? : List Char → Option (Json × List Char)
  | '-' :: cs => unsigned? true cs
  | cs => unsigned? false cs

end TransactScript.Json
