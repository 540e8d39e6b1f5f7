/-
The shortest decimal that reads back as a given binary number.

The reals that read back as `m * 2 ^ q` lie between the points halfway to the
two neighbours of the number; the ends themselves read back as it exactly when
`m` is even. In quarters of the last place the number is `4 * m`, the upper end
is two quarters above it and the lower end two below, or one where the number
below is half as far away.

A decimal grid is the multiples of a power of ten. The search goes from a grid
with no chance to finer ones and takes the first that has a multiple that reads
back. The grid of `10 ^ q` for negative `q`, or of the integers, holds the
number itself, so it ends there at the latest.
-/
import LuaSource.Number.Binary64
import LuaSource.Number.Decimal

namespace LuaSource
namespace Shortest

/-- The number below a power of two is half as far away as the one above, unless
both are at the lowest exponent. -/
def gapBelow (m : Nat) (q : Int) : Nat :=
  if m = Nat.pow 2 52 ∧ Binary64.leastExponent < q then 1 else 2

def gapAbove : Nat := 2

/-- The quotient of `2 ^ e` and `10 ^ k` as a fraction. -/
def ratio (e k : Int) : Nat × Nat :=
  (Nat.pow 2 e.toNat * Nat.pow 10 (-k).toNat, Nat.pow 2 (-e).toNat * Nat.pow 10 k.toNat)

/-- Whether `d * 10 ^ k` reads back as `m * 2 ^ q`. -/
def readsBack (m : Nat) (q k : Int) (d : Nat) : Bool :=
  let (num, den) := ratio (q - 2) k
  let low := (4 * m - gapBelow m q) * num
  let high := (4 * m + gapAbove) * num
  if m % 2 = 0 then low ≤ d * den && d * den ≤ high else low < d * den && d * den < high

/-- Of the two multiples of `10 ^ k` next to `m * 2 ^ q`, the nearer of those
that read back as it. -/
def nearest? (m : Nat) (q k : Int) : Option Nat :=
  let (num, den) := ratio (q - 2) k
  let d := 4 * m * num / den
  match readsBack m q k d, readsBack m q k (d + 1) with
  -- A tie goes up.
  | true, true => some (if (2 * d + 1) * den ≤ 2 * (4 * m * num) then d + 1 else d)
  | true, false => some d
  | false, true => some (d + 1)
  | false, false => none

def finest (q : Int) : Int := min q 0

def exact (m : Nat) (q : Int) : Decimal :=
  ⟨m * Nat.pow 2 q.toNat * Nat.pow 5 (-q).toNat, finest q⟩

/-- A power of ten above the upper end: `2 ^ e` is above it, a positive power
of ten is at least as great as that power of eight, and a negative one as that
power of sixteen. -/
def coarsest (m : Nat) (q : Int) : Int :=
  let e := m.log2 + 2 + q
  max (e / 3 + 1) (e / 4 + 1)

/-- The search from the grid `n` steps above the finest one. -/
def search (m : Nat) (q : Int) : Nat → Decimal
  | 0 => exact m q
  | n + 1 =>
    let k := finest q + (n + 1)
    match nearest? m q k with
    | some d => ⟨d, k⟩
    | none => search m q n

end Shortest

/-- The decimal with the fewest digits that reads back as `m * 2 ^ q`, and of
those the nearest. -/
def shortest (m : Nat) (q : Int) : Decimal :=
  if m = 0 then ⟨0, 0⟩
  else Shortest.search m q (Shortest.coarsest m q - Shortest.finest q).toNat

end LuaSource
