/-
Binary floating-point numbers of 64 bits, given by their bit patterns, and
what the patterns denote. No arithmetic on machine floats is involved.
-/

namespace LuaSource

/-- A bit pattern of a sign, an exponent of 11 bits and a fraction of 52. -/
structure Binary64 where
  bits : UInt64
  deriving DecidableEq, Repr

namespace Binary64

/-- What a bit pattern denotes. `finite negative m q` is `m * 2 ^ q` with its
sign; the sign counts for zero too. -/
inductive Value
  | nan
  | infinite (negative : Bool)
  | finite (negative : Bool) (significand : Nat) (exponent : Int)
  deriving DecidableEq, Repr

/-- It is shared by the subnormal numbers and the first binade above them. -/
def leastExponent : Int := -1074

def negative (x : Binary64) : Bool := decide (Nat.pow 2 63 ≤ x.bits.toNat)

def biased (x : Binary64) : Nat := x.bits.toNat / Nat.pow 2 52 % Nat.pow 2 11

def fraction (x : Binary64) : Nat := x.bits.toNat % Nat.pow 2 52

def value (x : Binary64) : Value :=
  if x.biased = 2047 then
    if x.fraction = 0 then .infinite x.negative else .nan
  else if x.biased = 0 then .finite x.negative x.fraction leastExponent
  -- A normal number has a leading bit that is not stored.
  else .finite x.negative (Nat.pow 2 52 + x.fraction) (x.biased - 1 + leastExponent)

end Binary64
end LuaSource
