/-!
How the text of a script is laid out.
-/

namespace TransactScript

structure RenderOptions where
  indent : UInt64 := 4
  quoteIdentifiers : Bool := true
  terminateStatements : Bool := true
  maxRowsPerInsert : UInt64 := 1000
deriving DecidableEq, Repr

namespace RenderOptions

def indentation (o : RenderOptions) : String :=
  String.ofList (List.replicate o.indent.toNat ' ')

def terminator (o : RenderOptions) : String :=
  if o.terminateStatements then ";" else ""

/-- A statement holds at least one row, also where the limit is zero. -/
def batchSize (o : RenderOptions) : Nat :=
  max 1 o.maxRowsPerInsert.toNat

end RenderOptions

end TransactScript
