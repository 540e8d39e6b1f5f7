/-
Decimals `digits * 10 ^ exponent` and their text. A decimal is written
positionally while its leading digit stands near the point, and with an
exponent otherwise.
-/

namespace LuaSource

structure Decimal where
  digits : Nat
  exponent : Int
  deriving DecidableEq, Repr

namespace Decimal

def chars (x : Decimal) : List Char := Nat.toDigits 10 x.digits

/-- The power of ten at which the leading digit stands. -/
def lead (x : Decimal) : Int := x.exponent + x.chars.length - 1

def intChars : Int → List Char
  | .ofNat n => Nat.toDigits 10 n
  | .negSucc n => '-' :: Nat.toDigits 10 (n + 1)

/-- The digits `ds` with the leading one at the power `lead`, around a point
that has a digit on each side. -/
def positional (ds : List Char) (lead : Int) : List Char :=
  if lead < 0 then
    '0' :: '.' :: List.replicate ((-lead).toNat - 1) '0' ++ ds
  else
    let whole := lead.toNat + 1
    if ds.length ≤ whole then ds ++ List.replicate (whole - ds.length) '0' ++ ['.', '0']
    else ds.take whole ++ '.' :: ds.drop whole

def scientific (ds : List Char) (lead : Int) : List Char :=
  match ds with
  | [] => []
  | [d] => d :: 'e' :: intChars lead
  | d :: rest => d :: '.' :: rest ++ 'e' :: intChars lead

/-- The leading digits that are written positionally: from the power `least`
up to `greatest`. -/
structure Window where
  least : Int
  greatest : Int
  deriving Repr

def Window.mem (w : Window) (lead : Int) : Bool := w.least ≤ lead && lead ≤ w.greatest

/-- The text of `x`. It never reads as an integer: either it has a point with
a digit on each side, or an exponent. -/
def text (w : Window) (x : Decimal) : List Char :=
  if w.mem x.lead then positional x.chars x.lead else scientific x.chars x.lead

end Decimal
end LuaSource
