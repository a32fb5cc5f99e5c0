import TransactScript.Renderer

/-!
A script: its finished sections in the order in which they were finished, and the variables that they
declare, each once.
-/

namespace TransactScript

structure Script where
  options : RenderOptions := {}
  sections : List Section := []
  declared : List VariableName := []
deriving DecidableEq, Repr

namespace Script

def register (s : Script) (added : Section) : Logged Script := do
  let declared ← match added.declaredVariable? with
    | none => pure s.declared
    | some name =>
        if s.declared.contains name then Logged.fail (.duplicateVariableName name.text)
        else pure (s.declared ++ [name])
  Logged.report (.sectionRegistered (s.sections.length + 1) added.kind)
  pure { s with sections := s.sections ++ [added], declared := declared }

def declaredVariables (s : Script) : List VariableName :=
  s.sections.filterMap Section.declaredVariable?

def isDeclared (s : Script) (name : String) : Bool :=
  match VariableName.parse name with
  | .ok name => s.declared.contains name
  | .error _ => false

def renderWith (s : Script) (r : Renderer) : Logged String :=
  r.script s.sections

def render (s : Script) : Logged String :=
  s.renderWith s.options.renderer

end Script

end TransactScript
