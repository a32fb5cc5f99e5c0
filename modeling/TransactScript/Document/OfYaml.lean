import TransactScript.Document.Entity
import TransactScript.Yaml.Core
import TransactScript.Yaml.Lexer
import TransactScript.Yaml.Node

/-!
YAML nodes as nodes of a document. Aliases are followed where a node is looked at, so that what a
decoder passes over may be nested without end.
-/

namespace TransactScript.Yaml

open TransactScript.Document (Datum Fallible Parts expect knownFields?)

/-- A node in its document, with the number of collections that may still be entered. There is no node
if the document is empty. -/
structure View where
  anchors : Anchors
  room : Nat
  node : Option Node
deriving Repr

def depthLimit : Nat := 128

/-- Decoding, with the number of aliases that may still be followed. It bounds the work on a document in
which nodes stand for each other many times. -/
abbrev Decoding := StateT Nat Option

instance : Fallible Decoding where
  fail := failure

def jumpsPerMark : Nat := 100

def jump : Decoding Unit := do
  let jumps ← get
  if jumps = 0 then failure
  set (jumps - 1)

def Anchors.resolve? (a : Anchors) : Node → Decoding Node
  | .reference n => do
      jump
      expect (a.node? n)
  | n => pure n

def boolTag : Tag := .ofText "tag:yaml.org,2002:bool"

def intTag : Tag := .ofText "tag:yaml.org,2002:int"

def floatTag : Tag := .ofText "tag:yaml.org,2002:float"

def nullTag : Tag := .ofText "tag:yaml.org,2002:null"

def Node.tag? : Node → Option Tag
  | scalar tag _ _ | sequence tag _ | mapping tag _ => tag
  | reference _ => none

def Node.localName? (n : Node) : Option String :=
  n.tag?.bind Tag.localName?

def Node.isVacant : Node → Bool
  | scalar _ .plain text => text.isEmpty
  | _ => false

namespace View

def resolved? (v : View) : Decoding Node := do
  v.anchors.resolve? (← expect v.node)

def part (v : View) (n : Node) : View :=
  { v with room := v.room - 1, node := some n }

def text? (v : View) : Decoding String := do
  match ← v.resolved? with
  | .scalar _ _ text => pure text
  | _ => failure

def typedText? (kind : Tag) (v : View) : Decoding String := do
  match ← v.resolved? with
  | .scalar _ .plain text => pure text
  | .scalar tag .literal text => if tag = some kind then pure text else failure
  | _ => failure

def itemsOf? (v : View) : Node → Option (List View)
  | .sequence _ items => if v.room = 0 then none else some (items.map v.part)
  | _ => none

def pairsOf? (v : View) : Node → Option (List (View × View))
  | .mapping _ entries =>
      if v.room = 0 then none else some (entries.map fun (k, n) => (v.part k, v.part n))
  | _ => none

def items? (v : View) : Decoding (List View) := do
  if v.node.isNone then return []
  let n ← v.resolved?
  if n.isVacant then pure [] else expect (v.itemsOf? n)

def entries? (v : View) : Decoding (List (String × View)) := do
  if v.node.isNone then return []
  let n ← v.resolved?
  if n.isVacant then pure []
  else (← expect (v.pairsOf? n)).mapM fun (k, n) => do pure (← k.text?, n)

def parts? (v : View) : Decoding (Parts View) := do
  let n ← v.resolved?
  if n.localName?.isSome then failure
  match n with
  | .sequence .. => Parts.items <$> expect (v.itemsOf? n)
  | .mapping .. => Parts.pairs <$> expect (v.pairsOf? n)
  | _ => failure

def variant? (v : View) : Decoding (String × View) := do
  let n ← v.resolved?
  pure (← expect n.localName?, { v with node := some n })

end View

def scalarDatum? (tag : Option Tag) (style : Style) (text : String) : Option Datum :=
  if tag = some boolTag then (bool? text).map .bool
  else if tag = some intTag then (integer? text).join
  else if tag = some floatTag then (real? text).map .real
  else if tag = some nullTag then (if isNull text && text != "" then some .null else none)
  else if style = .plain && tag.all Tag.isLocal then plainDatum? text
  else some (.text text)

def datum? (a : Anchors) : Nat → Node → Decoding Datum
  | room, n => do
      let n ← a.resolve? n
      if n.localName?.isSome then failure
      match n, room with
      | .scalar tag style text, _ => expect (scalarDatum? tag style text)
      | .sequence _ items, room + 1 => do pure (.list (← items.mapM (datum? a room)))
      | .mapping _ entries, room + 1 => do
          pure (.map (← entries.mapM fun (k, v) => do pure (← datum? a room k, ← datum? a room v)))
      | _, _ => failure

instance : Document.Node Decoding View where
  text? := View.text?
  bool? v := do expect (bool? (← v.typedText? boolTag))
  word? v := do pure (UInt64.ofNat (← expect (word? (← v.typedText? intTag))))
  items? := View.items?
  entries? := View.entries?
  record? fields v := do expect (knownFields? fields (← v.entries?))
  variant? := View.variant?
  parts? := View.parts?
  datum? v := do datum? v.anchors v.room (← expect v.node)

def parse? (s : String) : Option Document :=
  (tokens? s).bind document?

def Document.decode? {α : Type} (d : Document) (decode : View → Decoding α) : Option α :=
  (decode ⟨d.anchors, depthLimit, d.root⟩).run' (jumpsPerMark * (d.root.map Node.size).getD 0)

end TransactScript.Yaml
