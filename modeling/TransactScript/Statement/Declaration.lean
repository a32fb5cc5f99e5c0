import TransactScript.RenderOptions
import TransactScript.Section

/-!
The statement that declares a table variable. A key of one column is written with the column, a key of
several as a line of its own.
-/

namespace TransactScript

def commaSeparated (parts : List String) : String :=
  ", ".intercalate parts

def commaLines (parts : List String) : String :=
  ",\n".intercalate parts

namespace RenderOptions

def quote (o : RenderOptions) (name : String) : String :=
  if o.quoteIdentifiers then Text.bracketed name else name

def columnDefinition (o : RenderOptions) (inlineKey : Bool) (c : TableColumn) : String :=
  o.quote c.name.text ++ " " ++ c.type.text ++ (if c.allowNull then " NULL" else " NOT NULL") ++
    (if inlineKey && c.isPrimaryKey then " PRIMARY KEY" else "")

def keyLines (o : RenderOptions) (key : List TableColumn) : List String :=
  if key.length ≤ 1 then []
  else [o.indentation ++ "PRIMARY KEY (" ++ commaSeparated (key.map fun c => o.quote c.name.text) ++ ")"]

def declare (o : RenderOptions) (t : TableVariable) : String :=
  let definitions := t.columns.map fun c => o.indentation ++ o.columnDefinition (t.primaryKey.length == 1) c
  "DECLARE " ++ t.name.text ++ " TABLE (\n" ++ commaLines (definitions ++ o.keyLines t.primaryKey) ++ "\n)"

def declaration (o : RenderOptions) (t : TableVariable) : Logged String :=
  if t.columns.isEmpty then Logged.fail (.emptyTableVariable t.name.text)
  else pure (o.declare t ++ o.terminator)

end RenderOptions

end TransactScript
