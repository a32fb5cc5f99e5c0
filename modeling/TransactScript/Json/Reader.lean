import TransactScript.Json.Number
import TransactScript.Text.Numeral

/-!
Reading JSON text: one value with blanks around it.
-/

namespace TransactScript.Json

def isSpace (c : Char) : Bool :=
  c == ' ' || c == '\t' || c == '\n' || c == '\r'

def skipSpace (cs : List Char) : List Char :=
  cs.dropWhile isSpace

def unit? : List Char → Option (Nat × List Char)
  | a :: b :: c :: d :: cs => (Text.natural? 16 [a, b, c, d]).map fun n => (n, cs)
  | _ => none

def isHighSurrogate (n : Nat) : Bool :=
  0xD800 ≤ n && n ≤ 0xDBFF

def isLowSurrogate (n : Nat) : Bool :=
  0xDC00 ≤ n && n ≤ 0xDFFF

def pairedChar (high low : Nat) : Char :=
  Char.ofNat (0x10000 + (high - 0xD800) * 0x400 + (low - 0xDC00))

def simpleEscape? : Char → Option Char
  | '"' => some '"'
  | '\\' => some '\\'
  | '/' => some '/'
  | 'b' => some '\x08'
  | 'f' => some '\x0c'
  | 'n' => some '\n'
  | 'r' => some '\r'
  | 't' => some '\t'
  | _ => none

/-- A character of a string, or nothing where half a surrogate pair stands. -/
abbrev Unpaired := Option Char

def escape? : List Char → Option (Unpaired × List Char)
  | 'u' :: cs => do
      let (n, cs) ← unit? cs
      if isHighSurrogate n then
        match cs with
        | '\\' :: 'u' :: tail =>
            let (low, rest) ← unit? tail
            if isLowSurrogate low then pure (some (pairedChar n low), rest) else pure (none, cs)
        | _ => pure (none, cs)
      else if isLowSurrogate n then pure (none, cs)
      else pure (some (Char.ofNat n), cs)
  | c :: cs => (simpleEscape? c).map fun c => (some c, cs)
  | [] => none

def stringBody? : Nat → List Char → Option (List Unpaired × List Char)
  | 0, _ => none
  | _ + 1, [] => none
  | _ + 1, '"' :: cs => some ([], cs)
  | fuel + 1, '\\' :: cs => do
      let (c, cs) ← escape? cs
      let (rest, cs) ← stringBody? fuel cs
      pure (c :: rest, cs)
  | fuel + 1, c :: cs =>
      if c.toNat < 0x20 then none
      else do
        let (rest, cs) ← stringBody? fuel cs
        pure (some c :: rest, cs)

def string? (cs : List Char) : Option (Option String × List Char) := do
  let (chars, rest) ← stringBody? (cs.length + 1) cs
  pure ((chars.mapM id).map String.ofList, rest)

def ofEntries (entries : List (Option String × Json)) : Json :=
  match entries.mapM fun (key, j) => key.map fun k => (k, j) with
  | some entries => object entries
  | none => unreadable

mutual

def value? : Nat → List Char → Option (Json × List Char)
  | 0, _ => none
  | fuel + 1, cs =>
      match skipSpace cs with
      | 'n' :: 'u' :: 'l' :: 'l' :: cs => some (null, cs)
      | 't' :: 'r' :: 'u' :: 'e' :: cs => some (bool true, cs)
      | 'f' :: 'a' :: 'l' :: 's' :: 'e' :: cs => some (bool false, cs)
      | '"' :: cs => do
          let (s, cs) ← string? cs
          pure ((s.map string).getD unreadable, cs)
      | '[' :: cs =>
          match skipSpace cs with
          | ']' :: cs => some (array [], cs)
          | cs => do
              let (items, cs) ← items? fuel cs
              pure (array items, cs)
      | '\x7b' :: cs =>
          match skipSpace cs with
          | '\x7d' :: cs => some (object [], cs)
          | cs => do
              let (entries, cs) ← entries? fuel cs
              pure (ofEntries entries, cs)
      | cs => number? cs

def items? : Nat → List Char → Option (List Json × List Char)
  | 0, _ => none
  | fuel + 1, cs => do
      let (j, cs) ← value? fuel cs
      match skipSpace cs with
      | ',' :: cs =>
          let (js, cs) ← items? fuel cs
          pure (j :: js, cs)
      | ']' :: cs => pure ([j], cs)
      | _ => none

def entries? : Nat → List Char → Option (List (Option String × Json) × List Char)
  | 0, _ => none
  | fuel + 1, cs =>
      match skipSpace cs with
      | '"' :: cs => do
          let (key, cs) ← string? cs
          match skipSpace cs with
          | ':' :: cs =>
              let (j, cs) ← value? fuel cs
              match skipSpace cs with
              | ',' :: cs =>
                  let (rest, cs) ← entries? fuel cs
                  pure ((key, j) :: rest, cs)
              | '\x7d' :: cs => pure ([(key, j)], cs)
              | _ => none
          | _ => none
      | _ => none

end

def parse? (s : String) : Option Json :=
  let cs := s.toList
  match value? (2 * cs.length + 2) cs with
  | some (j, rest) => if (skipSpace rest).isEmpty then some j else none
  | none => none

end TransactScript.Json
