import TransactScript.Yaml.Tag

/-!
Tokens of YAML text: indicators, structure that follows from indentation, and scalars.
-/

namespace TransactScript.Yaml

inductive Style where
  | plain | singleQuoted | doubleQuoted | literal | folded
deriving DecidableEq, Repr

inductive Token where
  | streamEnd
  | versionDirective (major minor : Nat)
  | tagDirective (handle : String) (stem : Tag)
  | documentStart | documentEnd
  | blockSequenceStart | blockMappingStart | blockEnd
  | flowSequenceStart | flowSequenceEnd | flowMappingStart | flowMappingEnd
  | blockEntry | flowEntry | key | value
  | reference (name : String)
  | anchor (name : String)
  | tag (handle : String) (suffix : Tag)
  | scalar (style : Style) (text : String)
deriving DecidableEq, Repr

end TransactScript.Yaml
