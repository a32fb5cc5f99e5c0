import TransactScript.HostType

/-!
Schemas of host values: a name and an ordered list of typed properties.
-/

namespace TransactScript

structure Property where
  name : String
  hostType : HostType
deriving DecidableEq, Repr

structure Schema where
  name : String
  properties : List Property
deriving DecidableEq, Repr

namespace Schema

def property? (s : Schema) (name : String) : Option Property :=
  s.properties.find? fun p => p.name == name

def property (s : Schema) (name : String) : Except Fault Property :=
  match s.property? name with
  | some p => .ok p
  | none => .error (.schemaParse ("schema '" ++ s.name ++ "' has no property '" ++ name ++ "'"))

def firstRepeated? (seen : List String) : List String → Option String
  | [] => none
  | n :: ns => if seen.contains n then some n else firstRepeated? (n :: seen) ns

def validate (s : Schema) : Except Fault Schema :=
  if Text.isBlankText s.name then .error (.schemaParse "schema name cannot be empty")
  else match firstRepeated? [] (s.properties.map (·.name)) with
    | some p =>
        .error (.schemaParse ("duplicate property '" ++ p ++ "' in schema '" ++ s.name ++ "'"))
    | none => .ok s

abbrev Outline := List (String × String)

def ofOutline (name : String) (outline : Outline) : Except Fault Schema := do
  let properties ← outline.mapM fun (p, type) => (HostType.parse type).map (Property.mk p)
  validate ⟨name, properties⟩

def ofOutlines (entries : List (String × Outline)) : Except Fault (List Schema) :=
  entries.mapM fun (name, outline) => ofOutline name outline

end Schema

end TransactScript
