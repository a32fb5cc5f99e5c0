import TransactScript.Yaml.Property
import TransactScript.Yaml.Scalar

/-!
The tokens of YAML text. Outside flow collections, indentation opens and closes blocks. A key need not
be marked: the token that might begin one is remembered until a value indicator shows that it did.
-/

namespace TransactScript.Yaml

/-- The place where an unmarked key may have begun. It must turn out to be a key if nothing else can
stand at the indentation of a block. -/
structure KeyStart where
  required : Bool
  number : Nat
  index : Nat
  line : Nat
  column : Nat
deriving DecidableEq, Repr

def keyLength : Nat := 1024

/-- Tokens stand in reverse order. There is a possible key for each open flow collection, and one for
the blocks around them; the innermost comes first. -/
structure Lexer where
  cursor : Cursor
  tokens : List Token := []
  indent : Int := -1
  outer : List Int := []
  key : Option KeyStart := none
  outerKeys : List (Option KeyStart) := []
  keyAllowed : Bool := true
deriving DecidableEq, Repr

namespace Lexer

def inFlow (s : Lexer) : Bool :=
  !s.outerKeys.isEmpty

def emit (s : Lexer) (t : Token) : Lexer :=
  { s with tokens := t :: s.tokens }

def insertAt (s : Lexer) (number : Nat) (t : Token) : Lexer :=
  let later := s.tokens.length - number
  { s with tokens := s.tokens.take later ++ t :: s.tokens.drop later }

def closeBlocks (column : Int) (s : Lexer) : Lexer :=
  if s.inFlow then s
  else
    let rec go (s : Lexer) : List Int → Lexer
      | [] => { s with outer := [] }
      | i :: rest =>
          if column < s.indent then go { s.emit .blockEnd with indent := i } rest
          else { s with outer := i :: rest }
    go s s.outer

def openBlock (column : Nat) (number : Option Nat) (t : Token) (s : Lexer) : Lexer :=
  if !s.inFlow && s.indent < column then
    let s := { s with indent := column, outer := s.indent :: s.outer }
    match number with
    | some n => s.insertAt n t
    | none => s.emit t
  else s

def dropKey? (s : Lexer) : Option Lexer :=
  match s.key with
  | some k => if k.required then none else some { s with key := none }
  | none => some s

def saveKey? (s : Lexer) : Option Lexer :=
  if s.keyAllowed then do
    let s ← s.dropKey?
    let c := s.cursor
    pure { s with key := some ⟨!s.inFlow && s.indent == c.column, s.tokens.length, c.index, c.line, c.column⟩ }
  else some s

def expireKey? (c : Cursor) : Option KeyStart → Option (Option KeyStart)
  | some k =>
      if k.line < c.line ∨ k.index + keyLength < c.index then
        if k.required then none else some none
      else some (some k)
  | none => some none

def expireKeys? (s : Lexer) : Option Lexer := do
  let key ← expireKey? s.cursor s.key
  let outerKeys ← s.outerKeys.mapM (expireKey? s.cursor)
  pure { s with key := key, outerKeys := outerKeys }

def skipToToken : Nat → Lexer → Lexer
  | 0, s => s
  | fuel + 1, s =>
      let marked := s.cursor.column == 0 && s.cursor.rest.head? == some '\ufeff'
      let c := if marked then s.cursor.skip 1 else s.cursor
      let c := c.skipWhile fun ch => ch == ' ' || (ch == '\t' && (s.inFlow || !s.keyAllowed))
      let c := if c.rest.head? == some '#' then c.skipWhile fun ch => !isBreak ch else c
      if c.rest.head?.any isBreak then
        skipToToken fuel { s with cursor := c.skipBreak, keyAllowed := s.keyAllowed || !s.inFlow }
      else { s with cursor := c }

def take (s : Lexer) (n : Nat) (t : Token) : Lexer :=
  { s.emit t with cursor := s.cursor.skip n }

def atMargin? (s : Lexer) : Option Lexer := do
  let s ← (s.closeBlocks (-1)).dropKey?
  pure { s with keyAllowed := false }

def directive? (s : Lexer) : Option Lexer := do
  let s ← s.atMargin?
  let (t, c) ← Yaml.directive? s.cursor
  pure { s.emit t with cursor := c }

def marker? (t : Token) (s : Lexer) : Option Lexer := do
  pure ((← s.atMargin?).take 3 t)

def flowStart? (t : Token) (s : Lexer) : Option Lexer := do
  let s ← s.saveKey?
  pure ({ s with key := none, outerKeys := s.key :: s.outerKeys, keyAllowed := true }.take 1 t)

def flowEnd? (t : Token) (s : Lexer) : Option Lexer := do
  let s ← s.dropKey?
  let s := match s.outerKeys with
    | [] => s
    | k :: rest => { s with key := k, outerKeys := rest }
  pure ({ s with keyAllowed := false }.take 1 t)

def flowEntry? (s : Lexer) : Option Lexer := do
  let s ← s.dropKey?
  pure ({ s with keyAllowed := true }.take 1 .flowEntry)

def blockEntry? (s : Lexer) : Option Lexer := do
  if !s.inFlow && !s.keyAllowed then none
  let s ← (s.openBlock s.cursor.column none .blockSequenceStart).dropKey?
  pure ({ s with keyAllowed := true }.take 1 .blockEntry)

def key? (s : Lexer) : Option Lexer := do
  if !s.inFlow && !s.keyAllowed then none
  let s ← (s.openBlock s.cursor.column none .blockMappingStart).dropKey?
  pure ({ s with keyAllowed := !s.inFlow }.take 1 .key)

def value? (s : Lexer) : Option Lexer :=
  match s.key with
  | some k =>
      let s := (s.insertAt k.number .key).openBlock k.column (some k.number) .blockMappingStart
      some ({ s with key := none, keyAllowed := false }.take 1 .value)
  | none =>
      if !s.inFlow && !s.keyAllowed then none
      else
        let s := s.openBlock s.cursor.column none .blockMappingStart
        some ({ s with keyAllowed := !s.inFlow }.take 1 .value)

def anchor? (token : String → Token) (s : Lexer) : Option Lexer := do
  let s ← s.saveKey?
  let (name, c) ← anchorName? s.cursor
  pure { s.emit (token name) with cursor := c, keyAllowed := false }

def tag? (s : Lexer) : Option Lexer := do
  let s ← s.saveKey?
  let (t, c) ← tagToken? s.inFlow s.cursor
  pure { s.emit t with cursor := c, keyAllowed := false }

def blockScalar? (style : Style) (s : Lexer) : Option Lexer := do
  let s ← s.dropKey?
  let (text, c) ← block? (style = .folded) s.indent s.cursor
  pure { s.emit (.scalar style text) with cursor := c, keyAllowed := true }

def quotedScalar? (style : Style) (s : Lexer) : Option Lexer := do
  let s ← s.saveKey?
  let (text, c) ← quoted? (style = .singleQuoted) s.cursor
  pure { s.emit (.scalar style text) with cursor := c, keyAllowed := false }

def plainScalar? (s : Lexer) : Option Lexer := do
  let s ← s.saveKey?
  let (text, spansLines, c) ← plain? s.inFlow (s.indent + 1).toNat s.cursor
  pure { s.emit (.scalar .plain text) with cursor := c, keyAllowed := spansLines }

def isIndicator (c : Char) : Bool :=
  "-?:,[]\x7b\x7d#&*!|>'\"%@\x60".toList.contains c

def beginsPlain (inFlow : Bool) : List Char → Bool
  | [] => false
  | c :: cs =>
      (!isBlank c && !isBreak c && !isIndicator c) ||
        (c == '-' && !cs.head?.any isBlank) ||
        (!inFlow && (c == '?' || c == ':') && !isBlankOrEnd cs)

def inner? (s : Lexer) : Option Lexer :=
  let blankFollows := isBlankOrEnd (s.cursor.rest.drop 1)
  match s.cursor.rest.head? with
  | none => none
  | some '[' => s.flowStart? .flowSequenceStart
  | some '\x7b' => s.flowStart? .flowMappingStart
  | some ']' => s.flowEnd? .flowSequenceEnd
  | some '\x7d' => s.flowEnd? .flowMappingEnd
  | some ',' => s.flowEntry?
  | some '*' => s.anchor? .reference
  | some '&' => s.anchor? .anchor
  | some '!' => s.tag?
  | some '\'' => s.quotedScalar? .singleQuoted
  | some '"' => s.quotedScalar? .doubleQuoted
  | some c =>
      if c == '-' && blankFollows then s.blockEntry?
      else if c == '?' && (s.inFlow || blankFollows) then s.key?
      else if c == ':' && (s.inFlow || blankFollows) then s.value?
      else if c == '|' && !s.inFlow then s.blockScalar? .literal
      else if c == '>' && !s.inFlow then s.blockScalar? .folded
      else if beginsPlain s.inFlow s.cursor.rest then s.plainScalar?
      else none

def finish? (s : Lexer) : Option (List Token) := do
  let s ← (s.closeBlocks (-1)).dropKey?
  pure (Token.streamEnd :: s.tokens).reverse

def run? : Nat → Lexer → Option (List Token)
  | 0, _ => none
  | fuel + 1, s => do
      let s ← (skipToToken (fuel + 1) s).expireKeys?
      let s := s.closeBlocks s.cursor.column
      let c := s.cursor
      if c.isAtEnd then s.finish?
      else
        let next ←
          if c.column = 0 ∧ c.rest.head? = some '%' then s.directive?
          else if c.isAtMarker '-' then s.marker? .documentStart
          else if c.isAtMarker '.' then s.marker? .documentEnd
          else s.inner?
        run? fuel next

end Lexer

def tokens? (s : String) : Option (List Token) :=
  let cs := s.toList
  if cs.all isAllowed then Lexer.run? (cs.length + 2) { cursor := .start cs } else none

end TransactScript.Yaml
