/-!
Tags of nodes. A tag may be written with escapes for any octets, so it need not encode a text.
-/

namespace TransactScript.Yaml

structure Tag where
  octets : List UInt8
deriving DecidableEq, Repr

namespace Tag

def ofText (s : String) : Tag :=
  ⟨s.toUTF8.data.toList⟩

def ofOctets (octets : List UInt8) : Tag :=
  ⟨octets.takeWhile (· != 0)⟩

def isEmpty (t : Tag) : Bool :=
  t.octets.isEmpty

def append (stem suffix : Tag) : Tag :=
  ⟨stem.octets ++ suffix.octets⟩

def text? (t : Tag) : Option String :=
  String.fromUTF8? ⟨t.octets.toArray⟩

def isLocal (t : Tag) : Bool :=
  t.octets.head? == some 0x21

def localName? (t : Tag) : Option String :=
  match t.octets with
  | [0x21] => some "!"
  | 0x21 :: name => text? ⟨name⟩
  | _ => none

end Tag

end TransactScript.Yaml
