import TransactScript.Yaml.Token

/-!
The tree of a YAML document. Aliases stay as such, and the nodes that carry an anchor are listed
beside the tree.
-/

namespace TransactScript.Yaml

inductive Node where
  | scalar (tag : Option Tag) (style : Style) (text : String)
  | sequence (tag : Option Tag) (items : List Node)
  | mapping (tag : Option Tag) (entries : List (Node × Node))
  | reference (anchor : Nat)
deriving Repr

namespace Node

def empty : Node :=
  .scalar none .plain ""

mutual

def size : Node → Nat
  | scalar .. | reference _ => 1
  | sequence _ items => sizeOfItems items + 2
  | mapping _ entries => sizeOfEntries entries + 2

def sizeOfItems : List Node → Nat
  | [] => 0
  | n :: ns => size n + sizeOfItems ns

def sizeOfEntries : List (Node × Node) → Nat
  | [] => 0
  | (k, v) :: rest => size k + size v + sizeOfEntries rest

end

end Node

structure Anchored where
  anchor : Nat
  place : Nat
  node : Node
deriving Repr

/-- An anchor counts as the number of names known before; a name that is given again therefore may
count as much as another one, and then the later node stands for both. -/
structure Anchors where
  names : List (String × Nat) := []
  places : Nat := 0
  nodes : List Anchored := []
deriving Repr

namespace Anchors

def register (a : Anchors) (name : String) : Anchors :=
  let others := a.names.filter fun n => n.1 != name
  { a with names := (name, a.names.length) :: others, places := a.places + 1 }

def number? (a : Anchors) (name : String) : Option Nat :=
  a.names.lookup name

def enter (a : Anchors) (anchor place : Nat) (n : Node) : Anchors :=
  { a with nodes := ⟨anchor, place, n⟩ :: a.nodes }

def node? (a : Anchors) (anchor : Nat) : Option Node :=
  let latest := a.nodes.foldl (fun best n =>
    if n.anchor == anchor && best.all (fun b => b.place < n.place) then some n else best) none
  latest.map (·.node)

end Anchors

abbrev Handles := List (String × Tag)

def defaultHandles : Handles :=
  [("!", .ofText "!"), ("!!", .ofText "tag:yaml.org,2002:")]

def resolveTag? (handles : Handles) (handle : String) (suffix : Tag) : Option Tag :=
  if handle.isEmpty then some suffix else (handles.lookup handle).map fun stem => stem.append suffix

structure Properties where
  anchor : Option String := none
  tag : Option Tag := none
deriving DecidableEq, Repr

def properties? (handles : Handles) : List Token → Option (Properties × List Token)
  | .anchor a :: .tag h s :: ts => (resolveTag? handles h s).map fun t => (⟨some a, some t⟩, ts)
  | .anchor a :: ts => some (⟨some a, none⟩, ts)
  | .tag h s :: .anchor a :: ts => (resolveTag? handles h s).map fun t => (⟨some a, some t⟩, ts)
  | .tag h s :: ts => (resolveTag? handles h s).map fun t => (⟨none, some t⟩, ts)
  | ts => some ({}, ts)

structure Progress where
  tokens : List Token
  anchors : Anchors

/-- Where a node stands: inside a flow collection, in a block, or as key or value of a block mapping,
which may be a sequence that is not indented further. -/
inductive Context where
  | flow | block | blockEntry
deriving DecidableEq, Repr

def endsBlockItem : List Token → Bool
  | .blockEntry :: _ | .blockEnd :: _ => true
  | _ => false

def endsPlainItem : List Token → Bool
  | .blockEntry :: _ | .key :: _ | .value :: _ | .blockEnd :: _ => true
  | _ => false

def endsBlockEntry : List Token → Bool
  | .key :: _ | .value :: _ | .blockEnd :: _ => true
  | _ => false

def endsFlowKey : List Token → Bool
  | .value :: _ | .flowEntry :: _ | .flowMappingEnd :: _ => true
  | _ => false

def endsFlowValue : List Token → Bool
  | .flowEntry :: _ | .flowMappingEnd :: _ => true
  | _ => false

def endsPairKey : List Token → Bool
  | .value :: _ | .flowEntry :: _ | .flowSequenceEnd :: _ => true
  | _ => false

def endsPairValue : List Token → Bool
  | .flowEntry :: _ | .flowSequenceEnd :: _ => true
  | _ => false

variable (handles : Handles)

mutual

def node? : Nat → Context → Progress → Option (Node × Progress)
  | 0, _, _ => none
  | fuel + 1, context, p =>
      match p.tokens with
      | .reference name :: ts => (p.anchors.number? name).map fun n => (.reference n, { p with tokens := ts })
      | tokens => do
          let (properties, ts) ← properties? handles tokens
          match properties.anchor with
          | none => content? fuel context properties { p with tokens := ts }
          | some name =>
              let (number, place) := (p.anchors.names.length, p.anchors.places)
              let (n, p) ← content? fuel context properties ⟨ts, p.anchors.register name⟩
              pure (n, { p with anchors := p.anchors.enter number place n })

def content? : Nat → Context → Properties → Progress → Option (Node × Progress)
  | 0, _, _, _ => none
  | fuel + 1, context, properties, p =>
      let on (ts : List Token) : Progress := { p with tokens := ts }
      match p.tokens with
      | .scalar style text :: ts => some (.scalar properties.tag style text, on ts)
      | .flowSequenceStart :: ts => do
          let (items, p) ← flowItems? fuel true (on ts)
          pure (.sequence properties.tag items, p)
      | .flowMappingStart :: ts => do
          let (entries, p) ← flowEntries? fuel true (on ts)
          pure (.mapping properties.tag entries, p)
      | tokens =>
          match tokens, context with
          | .blockEntry :: _, .blockEntry => do
              let (items, p) ← plainItems? fuel p
              pure (.sequence properties.tag items, p)
          | .blockSequenceStart :: ts, .block | .blockSequenceStart :: ts, .blockEntry => do
              let (items, p) ← blockItems? fuel (on ts)
              pure (.sequence properties.tag items, p)
          | .blockMappingStart :: ts, .block | .blockMappingStart :: ts, .blockEntry => do
              let (entries, p) ← blockEntries? fuel (on ts)
              pure (.mapping properties.tag entries, p)
          | _, _ =>
              if properties = {} then none else some (.scalar properties.tag .plain "", p)

def optional? : Nat → Context → (List Token → Bool) → Progress → Option (Node × Progress)
  | 0, _, _, _ => none
  | fuel + 1, context, ends, p =>
      if ends p.tokens then some (.empty, p) else node? fuel context p

def blockItems? : Nat → Progress → Option (List Node × Progress)
  | 0, _ => none
  | fuel + 1, p =>
      match p.tokens with
      | .blockEntry :: ts => do
          let (n, p) ← optional? fuel .block endsBlockItem { p with tokens := ts }
          let (rest, p) ← blockItems? fuel p
          pure (n :: rest, p)
      | .blockEnd :: ts => some ([], { p with tokens := ts })
      | _ => none

def plainItems? : Nat → Progress → Option (List Node × Progress)
  | 0, _ => none
  | fuel + 1, p =>
      match p.tokens with
      | .blockEntry :: ts => do
          let (n, p) ← optional? fuel .block endsPlainItem { p with tokens := ts }
          let (rest, p) ← plainItems? fuel p
          pure (n :: rest, p)
      | _ => some ([], p)

def blockEntries? : Nat → Progress → Option (List (Node × Node) × Progress)
  | 0, _ => none
  | fuel + 1, p =>
      match p.tokens with
      | .key :: ts => do
          let (k, p) ← optional? fuel .blockEntry endsBlockEntry { p with tokens := ts }
          let (v, p) ← blockValue? fuel p
          let (rest, p) ← blockEntries? fuel p
          pure ((k, v) :: rest, p)
      | .blockEnd :: ts => some ([], { p with tokens := ts })
      | _ => none

def blockValue? : Nat → Progress → Option (Node × Progress)
  | 0, _ => none
  | fuel + 1, p =>
      match p.tokens with
      | .value :: ts => optional? fuel .blockEntry endsBlockEntry { p with tokens := ts }
      | _ => some (.empty, p)

def flowItems? : Nat → Bool → Progress → Option (List Node × Progress)
  | 0, _, _ => none
  | fuel + 1, first, p =>
      match p.tokens, first with
      | .flowSequenceEnd :: ts, _ => some ([], { p with tokens := ts })
      | .flowEntry :: .flowSequenceEnd :: ts, false => some ([], { p with tokens := ts })
      | .flowEntry :: ts, false => do
          let (n, p) ← flowItem? fuel { p with tokens := ts }
          let (rest, p) ← flowItems? fuel false p
          pure (n :: rest, p)
      | _, false => none
      | _, true => do
          let (n, p) ← flowItem? fuel p
          let (rest, p) ← flowItems? fuel false p
          pure (n :: rest, p)

def flowItem? : Nat → Progress → Option (Node × Progress)
  | 0, _ => none
  | fuel + 1, p =>
      match p.tokens with
      | .key :: ts =>
          if endsPairKey ts then do
            let (v, p) ← pairValue? fuel { p with tokens := ts.drop 1 }
            pure (.mapping none [(.empty, v)], p)
          else do
            let (k, p) ← node? fuel .flow { p with tokens := ts }
            let (v, p) ← pairValue? fuel p
            pure (.mapping none [(k, v)], p)
      | _ => node? fuel .flow p

def pairValue? : Nat → Progress → Option (Node × Progress)
  | 0, _ => none
  | fuel + 1, p =>
      match p.tokens with
      | .value :: ts => optional? fuel .flow endsPairValue { p with tokens := ts }
      | _ => some (.empty, p)

def flowEntries? : Nat → Bool → Progress → Option (List (Node × Node) × Progress)
  | 0, _, _ => none
  | fuel + 1, first, p =>
      match p.tokens, first with
      | .flowMappingEnd :: ts, _ => some ([], { p with tokens := ts })
      | .flowEntry :: .flowMappingEnd :: ts, false => some ([], { p with tokens := ts })
      | .flowEntry :: ts, false => do
          let (e, p) ← flowEntryPair? fuel { p with tokens := ts }
          let (rest, p) ← flowEntries? fuel false p
          pure (e :: rest, p)
      | _, false => none
      | _, true => do
          let (e, p) ← flowEntryPair? fuel p
          let (rest, p) ← flowEntries? fuel false p
          pure (e :: rest, p)

def flowEntryPair? : Nat → Progress → Option ((Node × Node) × Progress)
  | 0, _ => none
  | fuel + 1, p =>
      match p.tokens with
      | .key :: ts => do
          let (k, p) ← optional? fuel .flow endsFlowKey { p with tokens := ts }
          match p.tokens with
          | .value :: ts => do
              let (v, p) ← optional? fuel .flow endsFlowValue { p with tokens := ts }
              pure ((k, v), p)
          | _ => pure ((k, .empty), p)
      | _ => do
          let (k, p) ← node? fuel .flow p
          pure ((k, .empty), p)

end

structure Document where
  root : Option Node
  anchors : Anchors
deriving Repr

def directives? : Bool → Handles → List Token → Option (Handles × List Token)
  | versioned, given, .versionDirective major minor :: ts =>
      if versioned || major ≠ 1 || !(minor == 1 || minor == 2) then none else directives? true given ts
  | versioned, given, .tagDirective handle stem :: ts =>
      if given.any (·.1 == handle) then none else directives? versioned ((handle, stem) :: given) ts
  | _, given, ts => some (given ++ defaultHandles, ts)

def startsDocument : List Token → Bool
  | .versionDirective .. :: _ | .tagDirective .. :: _ | .documentStart :: _ => true
  | _ => false

def endsDocument : List Token → Bool
  | .documentEnd :: _ | .streamEnd :: _ => true
  | ts => startsDocument ts

def isFinished (ts : List Token) : Bool :=
  ts.dropWhile (· == .documentEnd) == [.streamEnd]

def document? (ts : List Token) : Option Document := do
  if ts = [.streamEnd] then pure ⟨none, {}⟩
  else
    let (handles, ts, context) ←
      if startsDocument ts then do
        let (handles, ts) ← directives? false [] ts
        match ts with
        | .documentStart :: ts => pure (handles, ts, true)
        | _ => none
      else pure (defaultHandles, ts, false)
    let (root, p) ←
      if context && endsDocument ts then pure (Node.empty, Progress.mk ts {})
      else node? handles (4 * ts.length + 4) .block ⟨ts, {}⟩
    if isFinished p.tokens then pure ⟨some root, p.anchors⟩ else none

end TransactScript.Yaml
