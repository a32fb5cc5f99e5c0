import TransactScript.Column
import TransactScript.Json.Value
import TransactScript.RenderOptions

/-!
Encoding the library's values as JSON.
-/

namespace TransactScript

namespace ColumnType

def fields (t : ColumnType) : List (String × Json) :=
  ("type", .string t.keyword) ::
    match t with
    | plain _ => []
    | decimal precision scale =>
        [("precision", .integer precision.toNat), ("scale", .integer scale.toNat)]
    | string _ length => [("length", Json.ofOption (fun n => .integer n.toNat) length)]

def toJson (t : ColumnType) : Json :=
  .object t.fields

end ColumnType

def Column.toJson (c : Column) : Json :=
  .object (("name", .string c.name.text) :: c.type.fields)

def TableColumn.toJson (c : TableColumn) : Json :=
  .object (("name", .string c.name.text) :: c.type.fields ++
    [("allow_null", .bool c.allowNull), ("is_primary_key", .bool c.isPrimaryKey)])

def Property.toJson (p : Property) : Json :=
  .object [("name", .string p.name), ("type", .string p.hostType.text)]

def Schema.toJson (s : Schema) : Json :=
  .object [("name", .string s.name), ("properties", .array (s.properties.map Property.toJson))]

def Destination.toJson : Destination → Json
  | table name => .object [("table", .string name.text)]
  | tableVariable name => .object [("variable", .string name.text)]

def RenderOptions.toJson (o : RenderOptions) : Json :=
  .object [("indent", .integer o.indent.toNat), ("quote_identifiers", .bool o.quoteIdentifiers),
    ("terminate_statements", .bool o.terminateStatements),
    ("max_rows_per_insert", .integer o.maxRowsPerInsert.toNat)]

end TransactScript
