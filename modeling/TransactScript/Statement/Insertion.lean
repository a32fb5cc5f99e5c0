import TransactScript.Statement.Declaration

/-!
The statements that insert the rows of a section, source by source.
-/

namespace TransactScript

def blocks {α : Type} (n : Nat) : List α → List (List α)
  | [] => []
  | a :: as => (a :: as.take n) :: blocks n (as.drop n)
termination_by as => as.length
decreasing_by exact Nat.lt_succ_of_le (List.length_drop ▸ Nat.sub_le _ _)

namespace RenderOptions

def destination (o : RenderOptions) : Destination → String
  | .table name => o.quote name.text
  | .tableVariable name => name.text

def columnNames (o : RenderOptions) (columns : List Column) : String :=
  if columns.isEmpty then ""
  else " (" ++ commaSeparated (columns.map fun c => o.quote c.name.text) ++ ")"

def insertHead (o : RenderOptions) (d : Destination) (columns : List Column) : String :=
  "INSERT INTO " ++ o.destination d ++ o.columnNames columns

def row (literals : List Literal) : String :=
  "(" ++ commaSeparated (literals.map Literal.sql) ++ ")"

def queryBody (query : String) : List Char :=
  Text.trimEnd (Text.dropLastIf ';' (Text.trim query.toList))

def insertRow (head : String) (r : List Literal) : String :=
  head ++ "\nVALUES " ++ row r

def insertRows (o : RenderOptions) (head : String) (batch : List (List Literal)) : String :=
  head ++ "\nVALUES\n" ++ commaLines (batch.map fun r => o.indentation ++ row r)

def insertQuery (head : String) (body : List Char) : String :=
  head ++ "\n" ++ String.ofList body

def statements (o : RenderOptions) (head : String) : Source → Logged (List String)
  | .values r => pure [insertRow head r ++ o.terminator]
  | .rows rows => do
      if o.batchSize < rows.length then
        Logged.report (.rowsSplit head rows.length o.batchSize)
      pure ((blocks (o.batchSize - 1) rows).map fun batch => o.insertRows head batch ++ o.terminator)
  | .query text =>
      let body := queryBody text
      if body.isEmpty then do
        Logged.report (.blankQuerySkipped head)
        pure []
      else pure [insertQuery head body ++ o.terminator]

def insertion (o : RenderOptions) (i : InsertData) : Logged String := do
  let parts ← i.sources.mapM (o.statements (o.insertHead i.destination i.columns))
  pure ("\n".intercalate parts.flatten)

end RenderOptions

end TransactScript
