/-!
Delimited texts in which a closing delimiter inside the text is written twice.
-/

namespace TransactScript.Text

def double (q : Char) : List Char → List Char
  | [] => []
  | c :: cs => if c = q then q :: q :: double q cs else c :: double q cs

def nationalLiteral (s : String) : String :=
  "N'" ++ String.ofList (double '\'' s.toList) ++ "'"

def bracketed (s : String) : String :=
  "[" ++ String.ofList (double ']' s.toList) ++ "]"

end TransactScript.Text
