/-
Comments: two dashes and the rest of the line, or a long bracket for text with
a line break in it.
-/
import LuaSource.LineBreak
import LuaSource.LongBracket

namespace LuaSource

def comment (text : String) : String :=
  if text.toList.any LineBreak.isBreak then "--" ++ longString text
  else if text.isEmpty then "--"
  -- The space keeps a text that starts with a bracket from opening a long comment.
  else "-- " ++ text

end LuaSource
