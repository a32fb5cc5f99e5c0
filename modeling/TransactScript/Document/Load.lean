import TransactScript.Document.OfJson
import TransactScript.Document.OfYaml
import TransactScript.Document.ToJson
import TransactScript.Literal.OfJson

/-!
Loading the library's values from the text of a document.
-/

namespace TransactScript

open Document

def loadJson {α : Type} (decode : Json → Option α) (text : String) : Except Fault α :=
  match (Json.parse? text).bind decode with
  | some a => .ok a
  | none => .error .json

def loadYaml {α : Type} (decode : Yaml.View → Yaml.Decoding α) (text : String) : Except Fault α :=
  match (Yaml.parse? text).bind fun d => d.decode? decode with
  | some a => .ok a
  | none => .error .yaml

namespace RenderOptions

def ofJsonText (text : String) : Except Fault RenderOptions :=
  loadJson renderOptions? text

def ofYamlText (text : String) : Except Fault RenderOptions :=
  loadYaml renderOptions? text

end RenderOptions

namespace Schema

def ofJsonText (text : String) : Except Fault Schema := do
  validate (← loadJson schema? text)

def ofYamlText (text : String) : Except Fault Schema := do
  validate (← loadYaml schema? text)

def manyOfYamlText (text : String) : Except Fault (List Schema) := do
  ofOutlines (← loadYaml outlines? text)

end Schema

def Literal.ofJsonText (text : String) : Except Fault Literal :=
  loadJson (fun j => if j.isReadableWithin 0 then some (Literal.ofJson j) else none) text

end TransactScript
