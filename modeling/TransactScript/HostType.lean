import TransactScript.ColumnType
import TransactScript.Fault
import TransactScript.Text.Blank

/-!
Types of the properties of a host program, and the column types that hold their values. A host type
is written by name, with a question mark behind it if values may be absent.
-/

namespace TransactScript

inductive HostKind where
  | bool | byte | string | dateTime | dateTimeOffset | short | int | long | decimal | double | float
  | timeSpan | guid | bytes | chars
  | other (name : String)
deriving DecidableEq, Repr

namespace HostKind

def name : HostKind → String
  | bool => "bool"
  | byte => "byte"
  | string => "string"
  | dateTime => "DateTime"
  | dateTimeOffset => "DateTimeOffset"
  | short => "short"
  | int => "int"
  | long => "long"
  | decimal => "decimal"
  | double => "double"
  | float => "float"
  | timeSpan => "TimeSpan"
  | guid => "Guid"
  | bytes => "byte[]"
  | chars => "char[]"
  | other name => name

def aliases : HostKind → List String
  | bool => ["boolean", "Boolean"]
  | byte => ["u8", "Byte"]
  | string => ["String", "str"]
  | dateTime => ["datetime", "NaiveDateTime"]
  | dateTimeOffset => ["datetimeoffset"]
  | short => ["i16", "Int16"]
  | int => ["i32", "Int32"]
  | long => ["i64", "Int64"]
  | decimal => ["Decimal"]
  | double => ["f64", "Double"]
  | float => ["f32", "Single"]
  | timeSpan => ["timespan", "Duration"]
  | guid => ["guid", "Uuid", "uuid"]
  | bytes => ["Vec<u8>", "bytes"]
  | chars => ["Vec<char>", "chars"]
  | other _ => []

def known : List HostKind :=
  [bool, byte, string, dateTime, dateTimeOffset, short, int, long, decimal, double, float, timeSpan,
    guid, bytes, chars]

def ofName (s : String) : HostKind :=
  (known.find? fun k => k.name == s || k.aliases.contains s).getD (other s)

def columnType? : HostKind → Option ColumnType
  | bool => some (.plain .bit)
  | byte => some (.plain .tinyint)
  | string => some (.string .nvarchar none)
  | dateTime => some (.plain .datetime)
  | dateTimeOffset => some (.plain .datetimeoffset)
  | short => some (.plain .smallint)
  | int => some (.plain .int)
  | long => some (.plain .bigint)
  | decimal => some (.decimal ColumnType.defaultPrecision ColumnType.defaultScale)
  | double => some (.plain .float)
  | float => some (.plain .real)
  | timeSpan => some (.plain .time)
  | guid => some (.plain .uniqueidentifier)
  | bytes => some (.string .binary none)
  | chars => some (.string .char none)
  | other _ => none

end HostKind

structure HostType where
  kind : HostKind
  nullable : Bool := false
deriving DecidableEq, Repr

namespace HostType

def text (t : HostType) : String :=
  if t.nullable then t.kind.name ++ "?" else t.kind.name

def asNullable (t : HostType) : HostType :=
  { t with nullable := true }

def parse (raw : String) : Except Fault HostType :=
  let whole := Text.trim raw.toList
  let nullable := whole.getLast? = some '?'
  let name := if nullable then Text.trimEnd whole.dropLast else whole
  if name.isEmpty then
    .error (.schemaParse ("empty host type name in '" ++ String.ofList whole ++ "'"))
  else .ok ⟨HostKind.ofName (String.ofList name), nullable⟩

def columnType (t : HostType) : Except Fault ColumnType :=
  match t.kind.columnType? with
  | some type => .ok type
  | none => .error (.unmappedType t.text)

end HostType

end TransactScript
