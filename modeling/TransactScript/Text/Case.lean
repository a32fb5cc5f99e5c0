/-!
Letter case of the Latin letters; other characters have none.
-/

namespace TransactScript.Text

def upperCase (s : String) : String :=
  String.ofList (s.toList.map Char.toUpper)

def lowerCase (s : String) : String :=
  String.ofList (s.toList.map Char.toLower)

end TransactScript.Text
