import TransactScript.Calendar
import TransactScript.Number.Notation
import TransactScript.Number.Reading
import TransactScript.Text.Quoted
import TransactScript.Uuid

/-!
Values of rows and their text in a statement.
-/

namespace TransactScript

open Number

inductive Literal where
  | null
  | bool (value : Bool)
  | int (value : Int)
  | float (value : Binary)
  | text (value : String)
  | uuid (value : Uuid)
  | bytes (value : List UInt8)
  | dateTime (value : DateTime)
  | dateTimeOffset (value : OffsetDateTime)
  | time (value : TimeOfDay)
  | raw (expression : String)
deriving DecidableEq, Repr

namespace Literal

def octetText (octets : List UInt8) : String :=
  "0x" ++ String.ofList (octets.flatMap (Text.octetDigits Text.upperHexDigit))

def quoted (s : String) : String :=
  "'" ++ s ++ "'"

def sql : Literal → String
  | null => "NULL"
  | bool b => if b then "1" else "0"
  | int i => Text.signedNumeral i
  | float x => (x.positional? .double).getD "NULL"
  | text s => Text.nationalLiteral s
  | uuid u => quoted u.text
  | bytes octets => octetText octets
  | dateTime t => quoted t.text
  | dateTimeOffset t => quoted t.text
  | time t => quoted t.text
  | raw expression => expression

def same : Literal → Literal → Bool
  | float x, float y => x.same y
  | dateTimeOffset s, dateTimeOffset t => s.instant == t.instant
  | a, b => a == b

/-- A single-precision number keeps its own shortest digits when it is widened. -/
def ofSingle (x : Binary) : Literal :=
  match x with
  | .finite s m e =>
      if m = 0 then float (.finite s 0 Format.double.least)
      else
        let d := shortest .single .upward m e
        float (Format.double.ofDecimal s d.digits d.exponent)
  | x => float x

def ofOption : Option Literal → Literal
  | some l => l
  | none => null

end Literal

end TransactScript
