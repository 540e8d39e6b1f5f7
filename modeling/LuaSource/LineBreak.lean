/-
Line breaks as a reader of source counts them: a line feed, a carriage return,
or the two in either order, which make one break.
-/

namespace LuaSource
namespace LineBreak

def isBreak (c : Char) : Bool := c == '\n' || c == '\r'

/-- The text after the line break that it starts with. -/
def skip? : List Char → Option (List Char)
  | '\r' :: '\n' :: rest => some rest
  | '\n' :: '\r' :: rest => some rest
  | '\r' :: rest => some rest
  | '\n' :: rest => some rest
  | _ => none

/-- The text with each of its line breaks as one line feed. -/
def normalize : List Char → List Char
  | [] => []
  | '\r' :: '\n' :: rest => '\n' :: normalize rest
  | '\n' :: '\r' :: rest => '\n' :: normalize rest
  | '\r' :: rest => '\n' :: normalize rest
  | c :: rest => c :: normalize rest

end LineBreak
end LuaSource
