/-
Fixed tokens and how they are spaced: a binary operator has a blank on each
side, a unary one clings to its operand unless it is a word, and a separator
has a blank after it where the eye wants one.
-/

namespace LuaSource

/-- Words that stand alone. -/
inductive Atom
  | nil
  | true
  | false
  | varargs
  | breakLoop
  deriving DecidableEq, Repr

def Atom.text : Atom → String
  | .nil => "nil"
  | .true => "true"
  | .false => "false"
  | .varargs => "..."
  | .breakLoop => "break"

inductive BinaryOp
  | add | sub | mul | div | floorDiv | mod | pow | concat
  | eq | ne | lt | le | gt | ge
  | and | or
  | bitAnd | bitOr | bitXor | shiftLeft | shiftRight
  deriving DecidableEq, Repr

def BinaryOp.symbol : BinaryOp → String
  | .add => "+"
  | .sub => "-"
  | .mul => "*"
  | .div => "/"
  | .floorDiv => "//"
  | .mod => "%"
  | .pow => "^"
  | .concat => ".."
  | .eq => "=="
  | .ne => "~="
  | .lt => "<"
  | .le => "<="
  | .gt => ">"
  | .ge => ">="
  | .and => "and"
  | .or => "or"
  | .bitAnd => "&"
  | .bitOr => "|"
  | .bitXor => "~"
  | .shiftLeft => "<<"
  | .shiftRight => ">>"

def BinaryOp.text (op : BinaryOp) : String := " " ++ op.symbol ++ " "

inductive UnaryOp
  | not | neg | length | bitNot
  deriving DecidableEq, Repr

def UnaryOp.text : UnaryOp → String
  | .not => "not "
  | .neg => "-"
  | .length => "#"
  | .bitNot => "~"

inductive Mark
  | assign | comma | semicolon | dot | colon
  | openParen | closeParen
  | openBracket | closeBracket
  | openBrace | closeBrace
  | space
  deriving DecidableEq, Repr

def Mark.text : Mark → String
  | .assign => " = "
  | .comma => ", "
  | .semicolon => ";"
  | .dot => "."
  | .colon => ":"
  | .openParen => "("
  | .closeParen => ")"
  | .openBracket => "["
  | .closeBracket => "]"
  | .openBrace => "\x7b"
  | .closeBrace => "\x7d"
  | .space => " "

inductive Token
  | atom (a : Atom)
  | binary (op : BinaryOp)
  | unary (op : UnaryOp)
  | mark (m : Mark)
  deriving DecidableEq, Repr

def Token.text : Token → String
  | .atom a => a.text
  | .binary op => op.text
  | .unary op => op.text
  | .mark m => m.text

end LuaSource
