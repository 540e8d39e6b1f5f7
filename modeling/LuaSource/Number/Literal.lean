/-
Number literals. Every value is written as an expression that denotes it: an
integer as an integer and a float as a float, however round it is.
-/
import LuaSource.Number.Shortest

namespace LuaSource
namespace Literal

/-- Floats are written positionally from `0.0001` to below `1e16`. -/
def window : Decimal.Window := ⟨-4, 15⟩

def signed (negative : Bool) (text : List Char) : List Char :=
  if negative then '-' :: text else text

/-- The least integer has no literal: a minus sign is an operator, and the number
after it would be too great for an integer. -/
def integerChars (v : Int64) : List Char :=
  if v = Int64.minValue then "math.mininteger".toList else Decimal.intChars v.toInt

def floatChars (x : Binary64) : List Char :=
  match x.value with
  | .nan => "(0/0)".toList
  | .infinite negative => signed negative "math.huge".toList
  | .finite negative m q => signed negative ((shortest m q).text window)

end Literal

def integer (v : Int64) : String := String.ofList (Literal.integerChars v)

def float (x : Binary64) : String := String.ofList (Literal.floatChars x)

end LuaSource
