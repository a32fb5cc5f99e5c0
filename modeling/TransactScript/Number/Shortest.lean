import TransactScript.Number.Binary

/-!
The shortest decimals that read back as a given binary number. The reals that round to a number form
an interval, which holds its ends if the mantissa is even. The coarsest power of ten with a multiple in
that interval is taken, and of its multiples there the one nearest to the number.
-/

namespace TransactScript.Number

structure Decimal where
  digits : Nat
  exponent : Int
deriving DecidableEq, Repr

inductive Tie where
  | upward | toEven
deriving DecidableEq, Repr

structure Interval where
  low : Nat
  centre : Nat
  high : Nat
  unit : Nat
  closed : Bool
deriving Repr

namespace Interval

/-- The reals that round to `m * 2 ^ e`. Below a power of two the numbers lie twice as dense. -/
def around (f : Format) (m : Nat) (e : Int) : Interval :=
  let below := if m = Nat.pow 2 (f.precision - 1) ∧ f.least < e then 1 else 2
  let (scale, unit) := Binary.ratio 1 (e - 2)
  ⟨(4 * m - below) * scale, 4 * m * scale, (4 * m + 2) * scale, unit, m % 2 == 0⟩

def holds (i : Interval) (x : Nat) : Bool :=
  if i.closed then i.low ≤ x && x ≤ i.high else i.low < x && x < i.high

def inPowers (i : Interval) : Int → Interval
  | .ofNat k => { i with unit := i.unit * Nat.pow 10 k }
  | .negSucc k =>
      let p := Nat.pow 10 (k + 1)
      { i with low := i.low * p, centre := i.centre * p, high := i.high * p }

def nearest? (tie : Tie) (i : Interval) : Option Nat :=
  let d := i.centre / i.unit
  let up := i.holds ((d + 1) * i.unit)
  if i.holds (d * i.unit) then
    if up then
      let twice := 2 * (i.centre % i.unit)
      if twice < i.unit then some d
      else if i.unit < twice then some (d + 1)
      else match tie with
        | .upward => some (d + 1)
        | .toEven => some (d + d % 2)
    else some d
  else if up then some (d + 1) else none

end Interval

def coarsest (tie : Tie) (i : Interval) (k : Int) : Nat → Decimal
  | 0 => ⟨(i.inPowers k).centre / (i.inPowers k).unit, k⟩
  | steps + 1 =>
      match (i.inPowers k).nearest? tie with
      | some d => ⟨d, k⟩
      | none => coarsest tie i (k - 1) steps

/-- A power of ten that exceeds every number below `2 ^ e`: its exponent is at least `e * log 2`. -/
def decimalBound (e : Int) : Int :=
  e * 30103 / 100000 + 1

def shortest (f : Format) (tie : Tie) (m : Nat) (e : Int) : Decimal :=
  coarsest tie (Interval.around f m e) (decimalBound (m.log2 + e + 1)) f.precision

end TransactScript.Number
