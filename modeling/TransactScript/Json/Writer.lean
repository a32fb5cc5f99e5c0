import TransactScript.Json.Value
import TransactScript.Number.Notation

/-!
Writing JSON text: compact, with the fewest escapes.
-/

namespace TransactScript.Json

open Number

def escaped (c : Char) : List Char :=
  match c with
  | '"' => ['\\', '"']
  | '\\' => ['\\', '\\']
  | '\x08' => ['\\', 'b']
  | '\x0c' => ['\\', 'f']
  | '\n' => ['\\', 'n']
  | '\r' => ['\\', 'r']
  | '\t' => ['\\', 't']
  | c =>
      if c.toNat < 0x20 then
        ['\\', 'u', '0', '0', Text.lowerHexDigit (c.toNat / 16), Text.lowerHexDigit (c.toNat % 16)]
      else [c]

def quoted (s : String) : String :=
  "\"" ++ String.ofList (s.toList.flatMap escaped) ++ "\""

def decimalText (d : Decimal) : String :=
  if -5 < d.pointAt ∧ d.pointAt ≤ 16 then
    if 0 ≤ d.exponent then d.positional ++ ".0" else d.positional
  else d.scientific

def realText : Binary → String
  | .finite s m e =>
      Number.withSign s (if m = 0 then "0.0" else decimalText (shortest .double .toEven m e))
  | _ => "null"

mutual

def write : Json → String
  | null | unreadable => "null"
  | bool b => if b then "true" else "false"
  | integer i => Text.signedNumeral i
  | real x => realText x
  | string s => quoted s
  | array items => "[" ++ writeItems items ++ "]"
  | object entries => "\x7b" ++ writeEntries entries ++ "\x7d"

def writeItems : List Json → String
  | [] => ""
  | [j] => write j
  | j :: js => write j ++ "," ++ writeItems js

def writeEntries : List (String × Json) → String
  | [] => ""
  | [(k, j)] => quoted k ++ ":" ++ write j
  | (k, j) :: rest => quoted k ++ ":" ++ write j ++ "," ++ writeEntries rest

end

def place (key : String) (j : Json) : List (String × Json) → List (String × Json)
  | [] => [(key, j)]
  | (k, i) :: rest =>
      if key < k then (key, j) :: (k, i) :: rest
      else if key = k then (k, j) :: rest
      else (k, i) :: place key j rest

mutual

def canonical : Json → Json
  | array items => array (canonicalItems items)
  | object entries => object ((canonicalEntries entries).foldl (fun done e => place e.1 e.2 done) [])
  | j => j

def canonicalItems : List Json → List Json
  | [] => []
  | j :: js => canonical j :: canonicalItems js

def canonicalEntries : List (String × Json) → List (String × Json)
  | [] => []
  | (k, j) :: rest => (k, canonical j) :: canonicalEntries rest

end

end TransactScript.Json
