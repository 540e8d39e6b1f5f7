/-
Short string literals: text between double quotes on one line. Quotes,
backslashes and control characters are escaped and every other character
stands for itself, so the literal never spans two lines.
-/

namespace LuaSource
namespace Quoted

/-- The character that stands for `c` after a backslash, if there is one. -/
def letter? : Char → Option Char
  | '\\' => some '\\'
  | '"' => some '"'
  | '\n' => some 'n'
  | '\r' => some 'r'
  | '\t' => some 't'
  | '\x07' => some 'a'
  | '\x08' => some 'b'
  | '\x0b' => some 'v'
  | '\x0c' => some 'f'
  | _ => none

def isControl (c : Char) : Bool := c.toNat < 32 || c.toNat == 127

def threeDigits (n : Nat) : List Char :=
  [(n / 100 % 10).digitChar, (n / 10 % 10).digitChar, (n % 10).digitChar]

/-- One character as it is written between the quotes. A numeric escape has
three digits, so that a digit after it is not read as a part of it. -/
def encodeChar (c : Char) : List Char :=
  match letter? c with
  | some l => ['\\', l]
  | none => if isControl c then '\\' :: threeDigits c.toNat else [c]

def encode (raw : List Char) : List Char := '"' :: raw.flatMap encodeChar ++ ['"']

end Quoted

def quote (raw : String) : String := String.ofList (Quoted.encode raw.toList)

@[simp] theorem toList_quote (raw : String) : (quote raw).toList = Quoted.encode raw.toList :=
  String.toList_ofList

end LuaSource
