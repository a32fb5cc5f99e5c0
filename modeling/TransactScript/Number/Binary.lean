/-!
Binary floating-point numbers, held exactly: a finite one is a whole mantissa times a power of two.
Every other quotient of natural numbers rounds to the nearest of them, a tie to the even mantissa.
-/

namespace TransactScript.Number

/-- A format of `precision` significant bits whose finite numbers are multiples of two to the power
`least` and have no unit above two to the power `greatest`. -/
structure Format where
  precision : Nat
  least : Int
  greatest : Int
deriving DecidableEq, Repr

def Format.double : Format := ⟨53, -1074, 971⟩

def Format.single : Format := ⟨24, -149, 104⟩

/-- The mantissa of a finite number is below two to the power of the precision, and the exponent is as
small as that allows. -/
inductive Binary where
  | finite (negative : Bool) (mantissa : Nat) (exponent : Int)
  | infinite (negative : Bool)
  | nan
deriving DecidableEq, Repr

def roundQuotient (num den : Nat) : Nat :=
  let q := num / den
  let r := num % den
  if 2 * r < den then q else if den < 2 * r then q + 1 else q + q % 2

def shiftedDown (num den : Nat) (e : Int) : Nat × Nat :=
  match e with
  | .ofNat k => (num, den * Nat.pow 2 k)
  | .negSucc k => (num * Nat.pow 2 (k + 1), den)

namespace Format

def binaryOrder (num den : Nat) : Int :=
  let e : Int := (num.log2 : Int) - (den.log2 : Int)
  let (n, d) := shiftedDown num den e
  if d ≤ n then e else e - 1

def round (f : Format) (negative : Bool) (num den : Nat) : Binary :=
  if num = 0 then .finite negative 0 f.least
  else
    let e := max f.least (binaryOrder num den - (f.precision - 1 : Nat))
    let (n, d) := shiftedDown num den e
    let m := roundQuotient n d
    let (m, e) := if m = Nat.pow 2 f.precision then (Nat.pow 2 (f.precision - 1), e + 1) else (m, e)
    if f.greatest < e then .infinite negative else .finite negative m e

def reserved (f : Format) : Nat :=
  (f.greatest - f.least).toNat + 2

def ofBits (f : Format) (bits : Nat) : Binary :=
  let hidden := Nat.pow 2 (f.precision - 1)
  let trailing := bits % hidden
  let field := bits / hidden % (f.reserved + 1)
  let negative := bits / hidden / (f.reserved + 1) % 2 == 1
  if field = f.reserved then
    if trailing = 0 then .infinite negative else .nan
  else if field = 0 then .finite negative trailing f.least
  else .finite negative (hidden + trailing) (f.least + (field - 1 : Nat))

def ofDecimal (f : Format) (negative : Bool) (digits : Nat) (exponent : Int) : Binary :=
  if digits = 0 then .finite negative 0 f.least
  else if f.greatest + f.precision < 3 * exponent then .infinite negative
  else if digits.log2 + 3 * exponent + 2 ≤ f.least then .finite negative 0 f.least
  else match exponent with
    | .ofNat k => f.round negative (digits * Nat.pow 10 k) 1
    | .negSucc k => f.round negative digits (Nat.pow 10 (k + 1))

end Format

namespace Binary

def same : Binary → Binary → Bool
  | finite s m e, finite t n d => (m == 0 && n == 0) || (s == t && m == n && e == d)
  | infinite s, infinite t => s == t
  | _, _ => false

def isFinite : Binary → Bool
  | finite .. => true
  | _ => false

def isZero : Binary → Bool
  | finite _ 0 _ => true
  | _ => false

def ratio (m : Nat) : Int → Nat × Nat
  | .ofNat k => (m * Nat.pow 2 k, 1)
  | .negSucc k => (m, Nat.pow 2 (k + 1))

def mul (f : Format) : Binary → Binary → Binary
  | nan, _ | _, nan => nan
  | infinite s, infinite t => infinite (s != t)
  | infinite s, finite t m _ | finite t m _, infinite s => if m = 0 then nan else infinite (s != t)
  | finite s m e, finite t n d =>
      let (num, den) := ratio (m * n) (e + d)
      f.round (s != t) num den

def div (f : Format) : Binary → Binary → Binary
  | nan, _ | _, nan | infinite _, infinite _ => nan
  | infinite s, finite t _ _ => infinite (s != t)
  | finite s _ _, infinite t => finite (s != t) 0 f.least
  | finite s m e, finite t n d =>
      if n = 0 then (if m = 0 then nan else infinite (s != t))
      else
        let (num, den) := ratio m (e - d)
        f.round (s != t) num (den * n)

end Binary

end TransactScript.Number
