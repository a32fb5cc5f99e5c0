/-!
A place in YAML text, and the classes of characters that reading depends on.
-/

namespace TransactScript.Yaml

def isAllowed (c : Char) : Bool :=
  let n := c.toNat
  n == 0x09 || n == 0x0A || n == 0x0D || (0x20 ≤ n && n ≤ 0x7E) || n == 0x85 ||
    (0xA0 ≤ n && n ≤ 0xFFFD) || 0x10000 ≤ n

def isBlank (c : Char) : Bool :=
  c == ' ' || c == '\t'

def isBreak (c : Char) : Bool :=
  c == '\n' || c == '\r' || c == '\x85' || c == '\u2028' || c == '\u2029'

def isWordChar (c : Char) : Bool :=
  c.isAlphanum || c == '-' || c == '_'

def isBlankOrEnd : List Char → Bool
  | [] => true
  | c :: _ => isBlank c || isBreak c

def isBreakOrEnd : List Char → Bool
  | [] => true
  | c :: _ => isBreak c

structure Cursor where
  rest : List Char
  index : Nat
  line : Nat
  column : Nat
deriving DecidableEq, Repr

namespace Cursor

def start (cs : List Char) : Cursor :=
  ⟨cs, 0, 0, 0⟩

def skip (c : Cursor) : Nat → Cursor
  | 0 => c
  | n + 1 =>
      match c.rest with
      | [] => c
      | ch :: cs => skip ⟨cs, c.index + ch.utf8Size, c.line, c.column + 1⟩ n

def skipWhile (c : Cursor) (p : Char → Bool) : Cursor :=
  c.skip (c.rest.takeWhile p).length

def breakChar (c : Char) : Char :=
  if c == '\u2028' || c == '\u2029' then c else '\n'

def takeBreak (c : Cursor) : List Char × Cursor :=
  match c.rest with
  | '\r' :: '\n' :: cs => (['\n'], ⟨cs, c.index + 2, c.line + 1, 0⟩)
  | b :: cs => if isBreak b then ([breakChar b], ⟨cs, c.index + b.utf8Size, c.line + 1, 0⟩) else ([], c)
  | [] => ([], c)

def skipBreak (c : Cursor) : Cursor :=
  c.takeBreak.2

def isAtEnd (c : Cursor) : Bool :=
  c.rest.isEmpty

def isAtMarker (mark : Char) (c : Cursor) : Bool :=
  c.column == 0 && c.rest.take 3 == [mark, mark, mark] && isBlankOrEnd (c.rest.drop 3)

def isAtDocumentMarker (c : Cursor) : Bool :=
  c.isAtMarker '-' || c.isAtMarker '.'

end Cursor

end TransactScript.Yaml
