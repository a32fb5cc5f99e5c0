import TransactScript.Text.Case
import TransactScript.Text.Numeral

/-!
Column types and their text in a declaration.
-/

namespace TransactScript

inductive PlainType where
  | bit | tinyint | smallint | int | bigint | float | real | money
  | date | datetime | datetime2 | datetimeoffset | time | uniqueidentifier | xml
deriving DecidableEq, Repr

inductive StringType where
  | nvarchar | varchar | nchar | char | binary | varbinary
deriving DecidableEq, Repr

inductive ColumnType where
  | plain (kind : PlainType)
  | decimal (precision scale : UInt8)
  | string (kind : StringType) (length : Option UInt16)
deriving DecidableEq, Repr

namespace PlainType

def keyword : PlainType → String
  | bit => "bit"
  | tinyint => "tinyint"
  | smallint => "smallint"
  | int => "int"
  | bigint => "bigint"
  | float => "float"
  | real => "real"
  | money => "money"
  | date => "date"
  | datetime => "datetime"
  | datetime2 => "datetime2"
  | datetimeoffset => "datetimeoffset"
  | time => "time"
  | uniqueidentifier => "uniqueidentifier"
  | xml => "xml"

end PlainType

namespace StringType

def keyword : StringType → String
  | nvarchar => "nvarchar"
  | varchar => "varchar"
  | nchar => "nchar"
  | char => "char"
  | binary => "binary"
  | varbinary => "varbinary"

def isVarying : StringType → Bool
  | nvarchar | varchar | varbinary => true
  | nchar | char | binary => false

end StringType

namespace ColumnType

def defaultPrecision : UInt8 := 18

def defaultScale : UInt8 := 2

def keyword : ColumnType → String
  | plain kind => kind.keyword
  | decimal _ _ => "decimal"
  | string kind _ => kind.keyword

/-- Every type with its default parameters, in the order by which tagged documents may number them. -/
def defaults : List ColumnType :=
  [plain .bit, plain .tinyint, plain .smallint, plain .int, plain .bigint,
    decimal defaultPrecision defaultScale, plain .float, plain .real, plain .money,
    string .nvarchar none, string .varchar none, string .nchar none, string .char none,
    plain .date, plain .datetime, plain .datetime2, plain .datetimeoffset, plain .time,
    plain .uniqueidentifier, string .binary none, string .varbinary none, plain .xml]

def ofKeyword? (s : String) : Option ColumnType :=
  defaults.find? fun t => t.keyword == s

def ofSimpleText? (s : String) : Option ColumnType :=
  match Text.lowerCase s with
  | "integer" => some (plain .int)
  | "numeric" => some (decimal defaultPrecision defaultScale)
  | lower => ofKeyword? lower

def parameters : ColumnType → String
  | plain _ => ""
  | decimal precision scale =>
      "(" ++ Text.numeral precision.toNat ++ "," ++ Text.numeral scale.toNat ++ ")"
  | string _ (some length) => "(" ++ Text.numeral length.toNat ++ ")"
  | string kind none => if kind.isVarying then "(MAX)" else ""

def text (t : ColumnType) : String :=
  Text.upperCase t.keyword ++ t.parameters

end ColumnType

end TransactScript
