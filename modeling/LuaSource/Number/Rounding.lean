/-
Rounding: which binary number a reader makes of an exact one. It takes the nearest, and of two
that are as near the one whose last bit is zero. Numbers beyond the greatest finite one are
rounded to it or to infinity, as if the next number were `2 ^ 1024`.

Signs are left out of it. A minus is no part of a numeral, so what is rounded is a magnitude.
-/
import LuaSource.Number.Binary64
import LuaSource.Number.Decimal
import Mathlib.Algebra.Order.Field.Power
import Mathlib.Algebra.Order.Field.Rat

namespace LuaSource

def Decimal.toRat (x : Decimal) : ℚ := x.digits * 10 ^ x.exponent

namespace Binary64

def isFinite (x : Binary64) : Bool :=
  match x.value with
  | .finite _ _ _ => true
  | .nan | .infinite _ => false

def magnitude (x : Binary64) : ℚ :=
  match x.value with
  | .finite _ m q => m * 2 ^ q
  | .nan | .infinite _ => 0

/-- Halfway between the greatest finite number and `2 ^ 1024`. The greatest finite number ends
in a one, so from here on all is infinite. -/
def overflow : ℚ := 2 ^ 1024 - 2 ^ 970

/-- `r` is rounded to the magnitude of `x`. -/
structure RoundsTo (r : ℚ) (x : Binary64) : Prop where
  isFinite : x.isFinite = true
  below : r < overflow
  nearest : ∀ y : Binary64, y.isFinite = true → |r - x.magnitude| ≤ |r - y.magnitude|
  even : ∀ y : Binary64, y.isFinite = true → y.magnitude ≠ x.magnitude →
    |r - y.magnitude| = |r - x.magnitude| → x.bits.toNat % 2 = 0

end Binary64
end LuaSource
