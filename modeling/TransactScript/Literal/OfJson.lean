import TransactScript.Json.Writer
import TransactScript.Literal

/-!
Literals from JSON values.
-/

namespace TransactScript.Literal

def leastInteger : Int := -9223372036854775808

def greatestInteger : Int := 9223372036854775807

/-- An integer of 64 signed bits stays exact, a greater one becomes a floating-point number. Arrays and
objects become their own text. -/
def ofJson : Json → Literal
  | .null | .unreadable => null
  | .bool b => bool b
  | .integer i =>
      if leastInteger ≤ i ∧ i ≤ greatestInteger then int i
      else float (Number.Format.double.round (i < 0) i.natAbs 1)
  | .real x => float x
  | .string s => text s
  | j => text j.canonical.write

end TransactScript.Literal
