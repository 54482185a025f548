import SqlExpr.Json.Strings

/-! # Writing JSON

Compact texts of lists and objects from the texts of what they hold.
-/
namespace SqlExpr.Json

def listText (items : List String) : String := "[" ++ ",".intercalate items ++ "]"

def objectText (fields : List (String × String)) : String :=
  "\x7b" ++ ",".intercalate (fields.map fun f => stringText f.1 ++ ":" ++ f.2) ++ "\x7d"

end SqlExpr.Json
