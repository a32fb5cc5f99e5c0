import TransactScript.Column
import TransactScript.Document.TypeTag
import TransactScript.RenderOptions

/-!
Decoding the library's values from the nodes of a document. A value that does not pass its own checks
is not decoded.
-/

namespace TransactScript.Document

open Node Fallible

variable {m : Type → Type} [Fallible m] {ν : Type} [Node m ν]

def checked? {α : Type} (parse : String → Except Fault α) (n : ν) : m α := do
  expect (parse (← text? n)).toOption

def identifier? (n : ν) : m Identifier :=
  checked? Identifier.parse n

def variableName? (n : ν) : m VariableName :=
  checked? VariableName.parse n

def hostType? (n : ν) : m HostType :=
  checked? HostType.parse n

def destination? (n : ν) : m Destination := do
  match ← variant? n with
  | ("table", content) => Destination.table <$> identifier? content
  | ("variable", content) => Destination.tableVariable <$> variableName? content
  | _ => fail

def field {α : Type} (fields : List (String × ν)) (key : String) (decode : ν → m α) : m α :=
  match fields.lookup key with
  | some n => decode n
  | none => fail

def fieldOr {α : Type} (fields : List (String × ν)) (key : String) (default : α) (decode : ν → m α) : m α :=
  match fields.lookup key with
  | some n => decode n
  | none => pure default

def property? (n : ν) : m Property := do
  let fields ← record? ["name", "type"] n
  pure ⟨← field fields "name" text?, ← field fields "type" hostType?⟩

def schema? (n : ν) : m Schema := do
  let fields ← record? ["name", "properties"] n
  let name ← field fields "name" text?
  let properties ← fieldOr fields "properties" [] fun n => do (← items? n).mapM property?
  pure ⟨name, properties⟩

def outline? (n : ν) : m Schema.Outline := do
  let types ← (← entries? n).mapM fun (name, type) => do pure (name, ← text? type)
  pure (lastValues types)

def outlines? (n : ν) : m (List (String × Schema.Outline)) := do
  let fields ← record? ["schemas"] n
  fieldOr fields "schemas" [] fun n => do
    let outlines ← (← entries? n).mapM fun (name, o) => do pure (name, ← outline? o)
    pure (lastValues outlines)

def renderOptions? (n : ν) : m RenderOptions := do
  let fields ← record? ["indent", "quote_identifiers", "terminate_statements", "max_rows_per_insert"] n
  let o : RenderOptions := {}
  pure {
    indent := ← fieldOr fields "indent" o.indent word?
    quoteIdentifiers := ← fieldOr fields "quote_identifiers" o.quoteIdentifiers bool?
    terminateStatements := ← fieldOr fields "terminate_statements" o.terminateStatements bool?
    maxRowsPerInsert := ← fieldOr fields "max_rows_per_insert" o.maxRowsPerInsert word? }

def tagKey : String := "type"

def isTagKey : Datum → Bool
  | .text s => s == tagKey
  | _ => false

def columnType? (n : ν) : m ColumnType := do
  match ← parts? n with
  | .items [] => fail
  | .items (tag :: rest) =>
      let tag ← text? tag
      expect (typeOfItems? (.text tag) (← rest.mapM datum?))
  | .pairs pairs =>
      let keyed ← pairs.mapM fun (k, v) => do pure (← datum? k, v)
      match keyed.partition fun e => isTagKey e.1 with
      | ([(_, tag)], rest) =>
          let tag ← text? tag
          expect (typeOfFields? (.text tag) (← rest.mapM fun (k, v) => do pure (k, ← datum? v)))
      | _ => fail

def embeddedType? (entries : List (String × ν)) : m ColumnType := do
  let fields ← entries.mapM fun (k, v) => do pure (Datum.text k, ← datum? v)
  match fields.partition fun e => isTagKey e.1 with
  | ([(_, tag)], rest) => expect (typeOfFields? tag rest)
  | _ => fail

def ownFields? (own : List String) (n : ν) : m (List (String × ν) × List (String × ν)) := do
  let entries ← entries? n
  let fields ← expect (knownFields? own entries)
  pure (fields, entries.filter fun e => !own.contains e.1)

def column? (n : ν) : m Column := do
  let (fields, rest) ← ownFields? ["name"] n
  let name ← field fields "name" identifier?
  pure ⟨name, ← embeddedType? rest⟩

def tableColumn? (n : ν) : m TableColumn := do
  let (fields, rest) ← ownFields? ["name", "allow_null", "is_primary_key"] n
  let name ← field fields "name" identifier?
  let type ← embeddedType? rest
  pure ⟨name, type, ← fieldOr fields "allow_null" false bool?, ← fieldOr fields "is_primary_key" false bool?⟩

end TransactScript.Document
