import TransactScript.Text.Numeral
import TransactScript.Yaml.Cursor
import TransactScript.Yaml.Token

/-!
Reading anchors, aliases, tags and directives.
-/

namespace TransactScript.Yaml

def takeWhile (c : Cursor) (p : Char → Bool) : List Char × Cursor :=
  (c.rest.takeWhile p, c.skipWhile p)

def endsAnchor (c : Char) : Bool :=
  c == '?' || c == ':' || c == ',' || c == ']' || c == '\x7d' || c == '%' || c == '@' || c == '\x60'

def anchorName? (c : Cursor) : Option (String × Cursor) :=
  let (name, c) := takeWhile (c.skip 1) isWordChar
  if name.isEmpty || !(isBlankOrEnd c.rest || c.rest.head?.any endsAnchor) then none
  else some (String.ofList name, c)

/-! Tags -/

def isUriChar (verbatim : Bool) (c : Char) : Bool :=
  isWordChar c || (";/?:@&=+$.%!~*'()".toList.contains c) || (verbatim && ",[]".toList.contains c)

def octetCount? (lead : Nat) : Option Nat :=
  if lead < 0x80 then some 1
  else if 0xC0 ≤ lead ∧ lead < 0xE0 then some 2
  else if 0xE0 ≤ lead ∧ lead < 0xF0 then some 3
  else if 0xF0 ≤ lead ∧ lead < 0xF8 then some 4
  else none

def escapedOctet? : List Char → Option (UInt8 × List Char)
  | '%' :: a :: b :: cs => (Text.natural? 16 [a, b]).map fun n => (UInt8.ofNat n, cs)
  | _ => none

def furtherOctets? : Nat → List Char → Option (List UInt8 × List Char)
  | 0, cs => some ([], cs)
  | n + 1, cs => do
      let (octet, cs) ← escapedOctet? cs
      if octet.toNat / 0x40 ≠ 2 then none
      let (more, cs) ← furtherOctets? n cs
      pure (octet :: more, cs)

def escapedOctets? (cs : List Char) : Option (List UInt8 × List Char) := do
  let (lead, cs) ← escapedOctet? cs
  let n ← octetCount? lead.toNat
  let (more, cs) ← furtherOctets? (n - 1) cs
  pure (lead :: more, cs)

def uri? (verbatim : Bool) : Nat → Cursor → Option (List UInt8 × Cursor)
  | 0, _ => none
  | fuel + 1, c =>
      match c.rest with
      | [] => some ([], c)
      | ch :: _ =>
          if !isUriChar verbatim ch then some ([], c)
          else do
            let (octets, rest) ←
              if ch == '%' then escapedOctets? c.rest else some ([UInt8.ofNat ch.toNat], c.rest.drop 1)
            let (more, c) ← uri? verbatim fuel (c.skip (c.rest.length - rest.length))
            pure (octets ++ more, c)

def handle? (c : Cursor) : Option (List Char × Cursor) :=
  match c.rest with
  | '!' :: _ =>
      let (word, c) := takeWhile (c.skip 1) isWordChar
      match c.rest with
      | '!' :: _ => some ('!' :: word ++ ['!'], c.skip 1)
      | _ => some ('!' :: word, c)
  | _ => none

def isClosedHandle (handle : List Char) : Bool :=
  1 < handle.length && handle.getLast? == some '!'

def tagToken? (inFlow : Bool) (c : Cursor) : Option (Token × Cursor) := do
  let (token, c) ← match c.rest with
    | '!' :: '<' :: _ => do
        let (suffix, c) ← uri? true (c.rest.length + 2) (c.skip 2)
        if suffix.isEmpty || c.rest.head? ≠ some '>' then none
        pure (Token.tag "" (.ofOctets suffix), c.skip 1)
    | _ => do
        let (handle, c) ← handle? c
        if isClosedHandle handle then
          let (suffix, c) ← uri? false (c.rest.length + 2) c
          if suffix.isEmpty then none
          pure (Token.tag (String.ofList handle) (.ofOctets suffix), c)
        else
          let (more, c) ← uri? false (c.rest.length + 2) c
          let suffix := (Tag.ofText (String.ofList (handle.drop 1))).append (.ofOctets more)
          if suffix.isEmpty then pure (Token.tag "" (.ofText "!"), c)
          else pure (Token.tag "!" suffix, c)
  if isBlankOrEnd c.rest || (inFlow && c.rest.head? == some ',') then pure (token, c) else none

/-! Directives -/

def versionNumber? (c : Cursor) : Option (Nat × Cursor) :=
  let (digits, c) := takeWhile c Char.isDigit
  if digits.length > 9 then none else (Text.natural? 10 digits).map fun n => (n, c)

def versionDirective? (c : Cursor) : Option (Token × Cursor) := do
  let (major, c) ← versionNumber? (c.skipWhile isBlank)
  if c.rest.head? ≠ some '.' then none
  let (minor, c) ← versionNumber? (c.skip 1)
  pure (.versionDirective major minor, c)

def tagDirective? (c : Cursor) : Option (Token × Cursor) := do
  let (handle, c) ← handle? (c.skipWhile isBlank)
  if !isClosedHandle handle && handle ≠ ['!'] then none
  if !c.rest.head?.any isBlank then none
  let (stem, c) ← uri? true (c.rest.length + 2) (c.skipWhile isBlank)
  if stem.isEmpty || !isBlankOrEnd c.rest then none
  pure (.tagDirective (String.ofList handle) (.ofOctets stem), c)

def directive? (c : Cursor) : Option (Token × Cursor) := do
  let (name, c) := takeWhile (c.skip 1) isWordChar
  if !isBlankOrEnd c.rest then none
  let (token, c) ← match String.ofList name with
    | "YAML" => versionDirective? c
    | "TAG" => tagDirective? c
    | _ => none
  let c := c.skipWhile isBlank
  let c := if c.rest.head? == some '#' then c.skipWhile fun ch => !isBreak ch else c
  if isBreakOrEnd c.rest then pure (token, c.skipBreak) else none

end TransactScript.Yaml
