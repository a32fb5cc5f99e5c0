import TransactScript.Document.Entity
import TransactScript.Json.Reader

/-!
JSON values as nodes of a document. A record may also be an array of its fields in order.
-/

namespace TransactScript.Json

open Document

mutual

def toDatum : Json → Datum
  | null | unreadable => .null
  | bool b => .bool b
  | integer i => if 0 ≤ i then .natural i.toNat else .signed i
  | real x => .real x
  | string s => .text s
  | array items => .list (toDatumItems items)
  | object entries => .map (toDatumEntries entries)

def toDatumItems : List Json → List Datum
  | [] => []
  | j :: js => toDatum j :: toDatumItems js

def toDatumEntries : List (String × Json) → List (Datum × Datum)
  | [] => []
  | (k, j) :: rest => (.text k, toDatum j) :: toDatumEntries rest

end

instance : Node Option Json where
  text?
    | string s => some s
    | _ => none
  bool?
    | bool b => some b
    | _ => none
  word?
    | integer i => if 0 ≤ i then some (UInt64.ofNat i.toNat) else none
    | _ => none
  items?
    | array items => some items
    | _ => none
  entries?
    | object entries => some entries
    | _ => none
  record? fields
    | object entries => knownFields? fields entries
    | array items => if items.length ≤ fields.length then some (fields.zip items) else none
    | _ => none
  variant?
    | object [entry] => some entry
    | _ => none
  parts?
    | array items => some (.items items)
    | object entries => some (.pairs (entries.map fun (k, j) => (string k, j)))
    | _ => none
  datum? j := if j.isReadableWithin 1 then some j.toDatum else none

end TransactScript.Json
