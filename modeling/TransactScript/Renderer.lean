import TransactScript.Statement.Insertion

/-!
Renderers turn finished sections into text. One that does not know a kind of section refuses it.
-/

namespace TransactScript

def unsupported {α : Type} (kind : SectionKind) : Logged α :=
  Logged.fail (.unsupportedSectionType kind.text)

structure Renderer where
  tableVariable : TableVariable → Logged String := fun _ => unsupported .tableVariable
  insertData : InsertData → Logged String := fun _ => unsupported .insertData
  fragment : Section → Logged String := fun
    | .tableVariable t => tableVariable t
    | .insertData i => insertData i

def RenderOptions.renderer (o : RenderOptions) : Renderer where
  tableVariable := o.declaration
  insertData := o.insertion

namespace Renderer

def framed (fragment : String) : String :=
  if fragment.isEmpty then "" else fragment ++ "\n"

def script (r : Renderer) : List Section → Logged String
  | [] => pure ""
  | s :: rest => do
      let fragment ← r.fragment s
      let others ← r.script rest
      pure (framed fragment ++ others)

end Renderer

end TransactScript
