import TransactScript.Text.Numeral
import TransactScript.Yaml.Cursor

/-!
Reading scalars. In flow scalars a single line break stands for a blank and further ones for
themselves; block scalars keep or fold the breaks of their lines and lose their indentation.
-/

namespace TransactScript.Yaml

structure Gap where
  blanks : List Char := []
  breaks : List Char := []
  escaped : Bool := false
deriving DecidableEq, Repr

namespace Gap

def spansLines (g : Gap) : Bool :=
  g.escaped || !g.breaks.isEmpty

def joined (g : Gap) : List Char :=
  if g.escaped then g.breaks
  else match g.breaks with
    | [] => g.blanks
    | b :: more => if b == '\n' then (if more.isEmpty then [' '] else more) else b :: more

end Gap

def gap? (tabStop : Nat) : Nat → Gap → Cursor → Option (Gap × Cursor)
  | 0, _, _ => none
  | fuel + 1, g, c =>
      match c.rest with
      | [] => some (g, c)
      | ch :: _ =>
          if isBlank ch then
            if g.spansLines then
              if ch == '\t' && c.column < tabStop then none else gap? tabStop fuel g (c.skip 1)
            else gap? tabStop fuel { g with blanks := g.blanks ++ [ch] } (c.skip 1)
          else if isBreak ch then
            let (b, c) := c.takeBreak
            gap? tabStop fuel { g with breaks := g.breaks ++ b } c
          else some (g, c)

namespace Cursor

def fuel (c : Cursor) : Nat :=
  c.rest.length + 2

end Cursor

/-! Plain scalars -/

def isFlowIndicator (c : Char) : Bool :=
  c == ',' || c == '[' || c == ']' || c == '\x7b' || c == '\x7d'

def plainWord? (inFlow : Bool) : List Char → Option (List Char)
  | [] => some []
  | c :: cs =>
      if isBlank c || isBreak c then some []
      else if inFlow && c == ':' && (cs.head?.any fun d => isFlowIndicator d || d == '?') then none
      else if (c == ':' && isBlankOrEnd cs) || (inFlow && isFlowIndicator c) then some []
      else (plainWord? inFlow cs).map (c :: ·)

def plainWords? (inFlow : Bool) (indent : Nat) :
    Nat → Gap → Cursor → Option (List Char × Gap × Cursor)
  | 0, _, _ => none
  | fuel + 1, g, c =>
      if c.isAtDocumentMarker || c.rest.head? == some '#' then some ([], g, c)
      else do
        let word ← plainWord? inFlow c.rest
        let (text, g) := if word.isEmpty then ([], g) else (g.joined ++ word, {})
        let c := c.skip word.length
        if c.isAtEnd || !isBlankOrEnd c.rest then some (text, g, c)
        else do
          let (g, c) ← gap? indent fuel g c
          if !inFlow && c.column < indent then some (text, g, c)
          else do
            let (rest, g, c) ← plainWords? inFlow indent fuel g c
            pure (text ++ rest, g, c)

def plain? (inFlow : Bool) (indent : Nat) (c : Cursor) : Option (String × Bool × Cursor) :=
  (plainWords? inFlow indent c.fuel {} c).map fun (text, g, c) => (String.ofList text, g.spansLines, c)

/-! Quoted scalars -/

def singleWord : List Char → List Char × Nat
  | [] => ([], 0)
  | '\'' :: '\'' :: cs => let (word, n) := singleWord cs; ('\'' :: word, n + 2)
  | c :: cs =>
      if c == '\'' || isBlank c || isBreak c then ([], 0)
      else let (word, n) := singleWord cs; (c :: word, n + 1)

def simpleEscape? : Char → Option Char
  | '0' => some '\x00'
  | 'a' => some '\x07'
  | 'b' => some '\x08'
  | 't' | '\t' => some '\t'
  | 'n' => some '\n'
  | 'v' => some '\x0b'
  | 'f' => some '\x0c'
  | 'r' => some '\r'
  | 'e' => some '\x1b'
  | ' ' => some ' '
  | '"' => some '"'
  | '/' => some '/'
  | '\\' => some '\\'
  | 'N' => some '\x85'
  | '_' => some '\xa0'
  | 'L' => some '\u2028'
  | 'P' => some '\u2029'
  | _ => none

def codeLength? : Char → Option Nat
  | 'x' => some 2
  | 'u' => some 4
  | 'U' => some 8
  | _ => none

def codePoint? (n : Nat) (cs : List Char) : Option Char := do
  let digits := cs.take n
  if digits.length ≠ n then none
  let code ← Text.natural? 16 digits
  if (0xD800 ≤ code ∧ code ≤ 0xDFFF) ∨ 0x10FFFF < code then none else some (Char.ofNat code)

def escape? : List Char → Option (Char × Nat)
  | [] => none
  | c :: cs =>
      match codeLength? c with
      | some n => (codePoint? n cs).map fun ch => (ch, n + 1)
      | none => (simpleEscape? c).map fun ch => (ch, 1)

def doubleWord? : Nat → List Char → Option (List Char × Nat)
  | 0, _ => none
  | _ + 1, [] => some ([], 0)
  | fuel + 1, c :: cs =>
      if c == '"' || isBlank c || isBreak c then some ([], 0)
      else if c == '\\' then
        if cs.head?.any isBreak then some ([], 0)
        else do
          let (ch, n) ← escape? cs
          let (word, m) ← doubleWord? fuel (cs.drop n)
          pure (ch :: word, m + n + 1)
      else do
        let (word, m) ← doubleWord? fuel cs
        pure (c :: word, m + 1)

def quotedWord? (single : Bool) (fuel : Nat) (c : Cursor) : Option (List Char × Nat) :=
  if single then some (singleWord c.rest) else doubleWord? fuel c.rest

def quotedWords? (single : Bool) : Nat → Cursor → Option (List Char × Cursor)
  | 0, _ => none
  | fuel + 1, c =>
      if c.isAtDocumentMarker || c.isAtEnd then none
      else do
        let (word, n) ← quotedWord? single (fuel + 1) c
        let c := c.skip n
        let (g, c) : Gap × Cursor := match c.rest with
          | '\\' :: _ => ({ escaped := true }, (c.skip 1).skipBreak)
          | _ => ({}, c)
        if c.rest.head? == some (if single then '\'' else '"') then some (word, c.skip 1)
        else do
          let (g, c) ← gap? 0 (fuel + 1) g c
          let (rest, c) ← quotedWords? single fuel c
          pure (word ++ g.joined ++ rest, c)

def quoted? (single : Bool) (c : Cursor) : Option (String × Cursor) :=
  (quotedWords? single c.fuel (c.skip 1)).map fun (text, c) => (String.ofList text, c)

/-! Block scalars -/

inductive Chomping where
  | strip | clip | keep
deriving DecidableEq, Repr

def chomping? : Char → Option Chomping
  | '-' => some .strip
  | '+' => some .keep
  | _ => none

def increment? (c : Char) : Option Nat :=
  if '1' ≤ c ∧ c ≤ '9' then some (c.toNat - '0'.toNat) else none

def blockHeader? (cs : List Char) : Option (Chomping × Option Nat × Nat) :=
  match cs with
  | [] => some (.clip, none, 0)
  | a :: rest =>
      match chomping? a, increment? a with
      | some how, _ =>
          match rest.head? with
          | some '0' => none
          | some b => match increment? b with
              | some n => some (how, some n, 2)
              | none => some (how, none, 1)
          | none => some (how, none, 1)
      | none, some n =>
          match rest.head?.bind chomping? with
          | some how => some (how, some n, 2)
          | none => some (.clip, some n, 1)
      | none, none => if a == '0' then none else some (.clip, none, 0)

/-- Takes indentation and empty lines. Without a known indentation all spaces count as such, and the
widest one is reported. -/
def blockBreaks? (indent : Option Nat) :
    Nat → Nat → List Char → Cursor → Option (Nat × List Char × Cursor)
  | 0, _, _, _ => none
  | fuel + 1, widest, breaks, c =>
      let spaces := (c.rest.takeWhile (· == ' ')).length
      let c := c.skip (match indent with
        | some n => min spaces (n - c.column)
        | none => spaces)
      let widest := max widest c.column
      match c.rest with
      | [] => some (widest, breaks, c)
      | ch :: _ =>
          if ch == '\t' && (match indent with
              | some n => c.column < n
              | none => true) then none
          else if isBreak ch then
            let (b, c) := c.takeBreak
            blockBreaks? indent fuel widest (breaks ++ b) c
          else some (widest, breaks, c)

structure BlockState where
  lineBreak : List Char := []
  emptyLines : List Char := []
  leadingBlank : Bool := false

def BlockState.joint (s : BlockState) (folds startsBlank : Bool) : List Char :=
  if folds && s.lineBreak == ['\n'] && !s.leadingBlank && !startsBlank then
    (if s.emptyLines.isEmpty then [' '] else []) ++ s.emptyLines
  else s.lineBreak ++ s.emptyLines

def blockLines? (folds : Bool) (indent : Nat) :
    Nat → BlockState → Cursor → Option (List Char × BlockState × Cursor)
  | 0, _, _ => none
  | fuel + 1, s, c =>
      if c.column ≠ indent ∨ c.isAtEnd then some ([], s, c)
      else do
        let startsBlank := c.rest.head?.any isBlank
        let line := c.rest.takeWhile fun ch => !isBreak ch
        let (b, c) := (c.skip line.length).takeBreak
        let (_, empty, c) ← blockBreaks? (some indent) (fuel + 1) 0 [] c
        let (rest, last, c) ← blockLines? folds indent fuel ⟨b, empty, startsBlank⟩ c
        pure (s.joint folds startsBlank ++ line ++ rest, last, c)

def BlockState.tail (s : BlockState) : Chomping → List Char
  | .strip => []
  | .clip => s.lineBreak
  | .keep => s.lineBreak ++ s.emptyLines

def block? (folds : Bool) (parent : Int) (c : Cursor) : Option (String × Cursor) := do
  let c := c.skip 1
  let (how, increment, n) ← blockHeader? c.rest
  let c := (c.skip n).skipWhile isBlank
  let c := if c.rest.head? == some '#' then c.skipWhile fun ch => !isBreak ch else c
  if !isBreakOrEnd c.rest then none
  let c := c.skipBreak
  let given := increment.map fun n => if 0 ≤ parent then parent.toNat + n else n
  let (widest, empty, c) ← blockBreaks? given c.fuel 0 [] c
  let indent := given.getD (max widest (max (parent + 1).toNat 1))
  let (text, last, c) ← blockLines? folds indent c.fuel { emptyLines := empty } c
  pure (String.ofList (text ++ last.tail how), c)

end TransactScript.Yaml
