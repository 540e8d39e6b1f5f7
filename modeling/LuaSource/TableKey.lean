/-
Keys of a table constructor, with the equals sign after them. A key that is a
name is written bare, any other as a bracketed short literal.
-/
import LuaSource.Name
import LuaSource.Quoted

namespace LuaSource

def tableKey (key : String) : String :=
  if isName key then key ++ " = " else "[" ++ quote key ++ "] = "

end LuaSource
