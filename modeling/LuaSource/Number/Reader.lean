/-
Reading number literals, and the expressions that stand for numbers which have
none. Digits alone are an integer unless they are too great for one; a point or
an exponent makes a float. Numerals are decimal.
-/
import LuaSource.Number.Decimal

namespace LuaSource

/-- What a numeral denotes. It has no sign: a minus is an operator. -/
inductive Numeral
  | integer (n : Nat)
  | float (x : Decimal)
  deriving DecidableEq, Repr

namespace Numeral

def greatest : Nat := Nat.pow 2 63 - 1

/-- The number that `acc` becomes when `digits` are put after it, unless it is
above the greatest integer at some digit. -/
def accumulate? (acc : Nat) : List Char → Option Nat
  | [] => some acc
  | c :: cs =>
    let acc := 10 * acc + (c.toNat - '0'.toNat)
    if acc ≤ greatest then accumulate? acc cs else none

def digits? (cs : List Char) : Option Nat :=
  if cs ≠ [] ∧ cs.all Char.isDigit then some (Nat.ofDigitChars 10 cs 0) else none

/-- The exponent at the end of a numeral, zero if there is none. -/
def exponent? : List Char → Option Int
  | [] => some 0
  | c :: cs =>
    if c = 'e' ∨ c = 'E' then
      match cs with
      | '-' :: ds => (digits? ds).map fun n => -(n : Int)
      | '+' :: ds => (digits? ds).map fun n => (n : Int)
      | ds => (digits? ds).map fun n => (n : Int)
    else none

def float? (whole fraction : List Char) (rest : List Char) : Option Numeral :=
  match digits? (whole ++ fraction), exponent? rest with
  | some n, some e => some (.float ⟨n, e - fraction.length⟩)
  | _, _ => none

def read? (cs : List Char) : Option Numeral :=
  let whole := cs.takeWhile Char.isDigit
  match cs.dropWhile Char.isDigit with
  | [] => (digits? whole).map fun n => if (accumulate? 0 whole).isSome then .integer n else .float ⟨n, 0⟩
  | '.' :: rest => float? whole (rest.takeWhile Char.isDigit) (rest.dropWhile Char.isDigit)
  | rest => float? whole [] rest

end Numeral

/-- The number that an expression denotes. A float is exact here; which binary
number is nearest is not a matter of the text. -/
inductive Quantity
  | integer (v : Int)
  | nan
  | infinite (negative : Bool)
  | float (negative : Bool) (x : Decimal)
  deriving DecidableEq, Repr

namespace Quantity

def operand? (cs : List Char) : Option Quantity :=
  if cs = "math.huge".toList then some (.infinite false)
  else if cs = "math.mininteger".toList then some (.integer (-(Numeral.greatest + 1 : Nat)))
  else match Numeral.read? cs with
    | some (.integer n) => some (.integer n)
    | some (.float x) => some (.float false x)
    | none => none

def negate : Quantity → Quantity
  | .integer v => .integer (-v)
  | .nan => .nan
  | .infinite negative => .infinite !negative
  | .float negative x => .float (!negative) x

def read? (cs : List Char) : Option Quantity :=
  match cs with
  | '-' :: rest => (operand? rest).map negate
  | _ => if cs = "(0/0)".toList then some .nan else operand? cs

end Quantity
end LuaSource
