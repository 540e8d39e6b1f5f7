/-
Rounding by neighbours. Without its sign a bit pattern is a count: the finite magnitudes stand
in the order of their patterns, and the next pattern is the next number. So what rounds to a
number is settled by the two numbers next to it. It is what lies between the points halfway to
them, with those points if the pattern is even (`RoundsTo.of_between`).

No number rounds to two places (`RoundsTo.ordinal_unique`). It would lie midway between two
even patterns, and the odd one between them would be nearer.
-/
import LuaSource.Number.Rounding
import Mathlib.Tactic.Linarith
import Mathlib.Tactic.LinearCombination
import Mathlib.Tactic.NormNum
import Mathlib.Tactic.Ring

namespace LuaSource
namespace Binary64

/-! ## Magnitudes in order -/

/-- The pattern without its sign. -/
def ordinal (x : Binary64) : Nat := x.bits.toNat % 2 ^ 63

/-- How many finite magnitudes there are. -/
def count : Nat := 2047 * 2 ^ 52

/-- The magnitude at a place in the order is `significand i * 2 ^ exponent i`. -/
def significand (i : Nat) : Nat := if i < 2 ^ 52 then i else 2 ^ 52 + i % 2 ^ 52

def exponent (i : Nat) : Int := ((i / 2 ^ 52 - 1 : Nat) : Int) + leastExponent

/-- What stands at a place in the order. From `count` on there is no pattern for it, and at
`count` itself it is where the next binade would begin. -/
def place (i : Nat) : ℚ := significand i * 2 ^ exponent i

theorem biased_eq (x : Binary64) : x.biased = x.ordinal / 2 ^ 52 := by
  simp only [biased, ordinal, Nat.pow_eq]
  omega

theorem fraction_eq (x : Binary64) : x.fraction = x.ordinal % 2 ^ 52 := by
  simp only [fraction, ordinal, Nat.pow_eq]
  omega

theorem value_of_ordinal_lt {x : Binary64} (h : x.ordinal < count) :
    x.value = .finite x.negative (significand x.ordinal) (exponent x.ordinal) := by
  have hb := x.biased_eq
  have hf := x.fraction_eq
  rw [count] at h
  rw [value, if_neg (by omega)]
  by_cases hsub : x.biased = 0
  · have hlt : x.ordinal < 2 ^ 52 := by omega
    have he : exponent x.ordinal = leastExponent := by rw [exponent]; omega
    rw [if_pos hsub, significand, if_pos hlt, he, hf, Nat.mod_eq_of_lt hlt]
  · have hge : ¬ x.ordinal < 2 ^ 52 := by omega
    have he : exponent x.ordinal = x.biased - 1 + leastExponent := by rw [exponent]; omega
    rw [if_neg hsub, significand, if_neg hge, he, hf, Nat.pow_eq]

theorem isFinite_iff {x : Binary64} : x.isFinite = true ↔ x.ordinal < count := by
  constructor
  · intro h
    rw [isFinite, value] at h
    by_cases hb : x.biased = 2047
    · rw [if_pos hb] at h
      by_cases hf : x.fraction = 0
      · rw [if_pos hf] at h; cases h
      · rw [if_neg hf] at h; cases h
    · have hlt : x.ordinal < 2 ^ 63 := Nat.mod_lt _ (by decide)
      have he := x.biased_eq
      rw [count]
      omega
  · intro h
    rw [isFinite, value_of_ordinal_lt h]

theorem of_value_finite {x : Binary64} {negative : Bool} {m : Nat} {q : Int}
    (h : x.value = .finite negative m q) : x.isFinite = true ∧ x.negative = negative ∧
      significand x.ordinal = m ∧ exponent x.ordinal = q := by
  have hfin : x.isFinite = true := by rw [isFinite, h]
  rw [value_of_ordinal_lt (isFinite_iff.1 hfin)] at h
  cases h
  exact ⟨hfin, rfl, rfl, rfl⟩

theorem of_value_infinite {x : Binary64} {negative : Bool} (h : x.value = .infinite negative) :
    x.negative = negative ∧ x.ordinal = count := by
  have hb := x.biased_eq
  have hf := x.fraction_eq
  rw [value] at h
  split at h
  · split at h
    · cases h
      exact ⟨rfl, by rw [count]; omega⟩
    · cases h
  · split at h <;> cases h

theorem magnitude_eq {x : Binary64} (h : x.isFinite = true) : x.magnitude = place x.ordinal := by
  rw [magnitude, value_of_ordinal_lt (isFinite_iff.1 h), place]

theorem exists_ordinal {i : Nat} (h : i < count) :
    ∃ x : Binary64, x.ordinal = i ∧ x.isFinite = true := by
  have hi : i < 2 ^ 63 := by rw [count] at h; omega
  have ho : Binary64.ordinal ⟨UInt64.ofNat i⟩ = i := by
    rw [ordinal, UInt64.toNat_ofNat_of_lt' (by rw [UInt64.size]; omega), Nat.mod_eq_of_lt hi]
  exact ⟨⟨UInt64.ofNat i⟩, ho, isFinite_iff.2 (by rw [ho]; exact h)⟩

theorem bits_mod_two (x : Binary64) : x.bits.toNat % 2 = x.ordinal % 2 := by
  rw [ordinal]; omega

theorem eq_of_ordinal_eq {x y : Binary64} (hs : x.negative = y.negative)
    (h : x.ordinal = y.ordinal) : x = y := by
  have hx := x.bits.toNat_lt
  have hy := y.bits.toNat_lt
  have hsign : 2 ^ 63 ≤ x.bits.toNat ↔ 2 ^ 63 ≤ y.bits.toNat := by
    simpa only [negative, Nat.pow_eq, decide_eq_decide] using hs
  have hbits : x.bits.toNat = y.bits.toNat := by
    rw [ordinal, ordinal] at h
    omega
  exact congrArg mk (UInt64.toNat.inj hbits)

/-! ## Neighbours -/

theorem significand_mod_two (i : Nat) : significand i % 2 = i % 2 := by
  rw [significand]
  by_cases h : i < 2 ^ 52
  · rw [if_pos h]
  · rw [if_neg h]; omega

theorem significand_pos {i : Nat} (hi : 0 < i) : 0 < significand i := by
  rw [significand]
  by_cases h : i < 2 ^ 52
  · rw [if_pos h]; exact hi
  · rw [if_neg h]; omega

/-- One step up is one in the last place, also where the next binade begins. -/
theorem place_succ (i : Nat) : place (i + 1) = place i + 2 ^ exponent i := by
  by_cases hsame : exponent (i + 1) = exponent i
  · have hs : significand (i + 1) = significand i + 1 := by
      simp only [exponent] at hsame
      simp only [significand]
      split_ifs <;> omega
    rw [place, place, hsame, hs]
    push_cast
    ring
  · have he : exponent (i + 1) = exponent i + 1 := by
      simp only [exponent] at hsame ⊢
      omega
    -- the carry goes into the exponent: the significand falls from all ones to its leading bit
    have hs : 2 * significand (i + 1) = significand i + 1 := by
      simp only [exponent] at hsame
      simp only [significand]
      split_ifs <;> omega
    have hs' : 2 * (significand (i + 1) : ℚ) = significand i + 1 := by exact_mod_cast hs
    rw [place, place, he, zpow_add_one₀ two_ne_zero]
    linear_combination (2 ^ exponent i : ℚ) * hs'

theorem place_strictMono : StrictMono place := by
  refine strictMono_nat_of_lt_succ fun i => ?_
  rw [place_succ]
  have : (0 : ℚ) < 2 ^ exponent i := zpow_pos two_pos _
  linarith

theorem place_zero : place 0 = 0 := by rw [place, significand]; simp

theorem place_last : place (count - 1) = 2 ^ 1024 - 2 ^ 971 := by
  have hs : significand (count - 1) = 2 ^ 53 - 1 := by decide
  have he : exponent (count - 1) = (971 : Nat) := by decide
  have hpow : (2 : ℚ) ^ 1024 = 2 ^ 53 * 2 ^ 971 := by rw [show 1024 = 53 + 971 from rfl, pow_add]
  rw [place, hs, he, zpow_natCast, hpow]
  generalize (2 : ℚ) ^ 971 = unit
  push_cast
  ring

theorem place_count : place count = 2 ^ 1024 := by
  have hs : significand count = 2 ^ 52 := by decide
  have he : exponent count = (972 : Nat) := by decide
  have hpow : (2 : ℚ) ^ 1024 = 2 ^ 52 * 2 ^ 972 := by rw [show 1024 = 52 + 972 from rfl, pow_add]
  rw [place, hs, he, zpow_natCast, hpow]
  push_cast
  rfl

/-! ## What rounds to a number -/

/-- `r` lies between the points halfway to the neighbours of the number at place `i`, and on
one of them only if `i` is even. Below zero there is no neighbour. -/
structure Between (i : Nat) (r : ℚ) : Prop where
  low : 0 < i → place (i - 1) + place i ≤ 2 * r
  high : 2 * r ≤ place i + place (i + 1)
  low_even : 0 < i → place (i - 1) + place i = 2 * r → i % 2 = 0
  high_even : 2 * r = place i + place (i + 1) → i % 2 = 0

variable {i j : Nat} {r : ℚ} {x y : Binary64}

theorem Between.self (i : Nat) : Between i (place i) := by
  have habove : place i < place (i + 1) := place_strictMono (Nat.lt_succ_self i)
  have hbelow : 0 < i → place (i - 1) < place i := fun hi =>
    place_strictMono (Nat.sub_one_lt_of_lt hi)
  refine ⟨fun hi => ?_, by linarith, fun hi he => ?_, fun he => ?_⟩
  · have := hbelow hi
    linarith
  · have := hbelow hi
    exact absurd he (by linarith)
  · exact absurd he (by linarith)

theorem Between.nearer_above (h : Between i r) (hj : i < j) :
    |r - place i| ≤ |r - place j| ∧ (|r - place j| = |r - place i| → i % 2 = 0) := by
  have hstep : place (i + 1) ≤ place j := place_strictMono.monotone hj
  have hlt : place i < place (i + 1) := place_strictMono (Nat.lt_succ_self i)
  have hhigh := h.high
  have habove : |r - place j| = place j - r := by
    rw [abs_sub_comm, abs_of_nonneg (by linarith)]
  rw [habove]
  rcases le_total r (place i) with hr | hr
  · rw [abs_sub_comm, abs_of_nonneg (by linarith)]
    exact ⟨by linarith, fun he => absurd he (by linarith)⟩
  · rw [abs_of_nonneg (by linarith)]
    exact ⟨by linarith, fun he => h.high_even (by linarith)⟩

theorem Between.nearer_below (h : Between i r) (hj : j < i) :
    |r - place i| ≤ |r - place j| ∧ (|r - place j| = |r - place i| → i % 2 = 0) := by
  have hi : 0 < i := Nat.zero_lt_of_lt hj
  have hstep : place j ≤ place (i - 1) := place_strictMono.monotone (Nat.le_sub_one_of_lt hj)
  have hlt : place (i - 1) < place i := place_strictMono (Nat.sub_one_lt_of_lt hi)
  have hlow := h.low hi
  have hbelow : |r - place j| = r - place j := abs_of_nonneg (by linarith)
  rw [hbelow]
  rcases le_total r (place i) with hr | hr
  · rw [abs_sub_comm, abs_of_nonneg (by linarith)]
    exact ⟨by linarith, fun he => h.low_even hi (by linarith)⟩
  · rw [abs_of_nonneg (by linarith)]
    exact ⟨by linarith, fun he => absurd he (by linarith)⟩

/-- The last place is odd, so nothing that rounds to it is as far as `overflow`. -/
theorem Between.lt_overflow (h : Between i r) (hi : i < count) : r < overflow := by
  have hends : place (count - 1) + place count = 2 * overflow := by
    have hpow : (2 : ℚ) ^ 971 = 2 ^ 970 * 2 := pow_succ 2 970
    rw [place_last, place_count, overflow, hpow]
    generalize (2 : ℚ) ^ 1024 = next
    generalize (2 : ℚ) ^ 970 = half
    ring
  have hcount : 1 ≤ count := by decide
  rcases Nat.lt_or_ge i (count - 1) with hlt | hge
  · have h1 : place i < place (count - 1) := place_strictMono hlt
    have h2 : place (i + 1) < place count := place_strictMono (by omega)
    have := h.high
    linarith
  · obtain rfl : i = count - 1 := by omega
    have hodd : ¬ (count - 1) % 2 = 0 := by decide
    have hne := fun he => hodd (h.high_even he)
    have hlt := lt_of_le_of_ne h.high hne
    rw [Nat.sub_add_cancel hcount] at hlt
    linarith

/-- **Between the halfway points** is near enough: there a number rounds to `x`. -/
theorem RoundsTo.of_between (hx : x.isFinite = true) (h : Between x.ordinal r) :
    x.RoundsTo r where
  isFinite := hx
  below := h.lt_overflow (isFinite_iff.1 hx)
  nearest y hy := by
    rw [magnitude_eq hx, magnitude_eq hy]
    rcases Nat.lt_trichotomy y.ordinal x.ordinal with hlt | heq | hlt
    · exact (h.nearer_below hlt).1
    · rw [heq]
    · exact (h.nearer_above hlt).1
  even y hy hne htie := by
    rw [magnitude_eq hx, magnitude_eq hy] at hne htie
    rw [bits_mod_two]
    rcases Nat.lt_trichotomy y.ordinal x.ordinal with hlt | heq | hlt
    · exact (h.nearer_below hlt).2 htie
    · exact absurd (by rw [heq]) hne
    · exact (h.nearer_above hlt).2 htie

/-! ## One rounding only -/

/-- Of two numbers that `r` rounds to, the greater is not greater. -/
theorem RoundsTo.ordinal_le (hx : x.RoundsTo r) (hy : y.RoundsTo r) :
    y.ordinal ≤ x.ordinal := by
  by_contra hlt
  rw [Nat.not_le] at hlt
  have hmx := magnitude_eq hx.isFinite
  have hmy := magnitude_eq hy.isFinite
  have hxy : place x.ordinal < place y.ordinal := place_strictMono hlt
  have htie : |r - y.magnitude| = |r - x.magnitude| :=
    le_antisymm (hy.nearest x hx.isFinite) (hx.nearest y hy.isFinite)
  have hxeven := hx.even y hy.isFinite (by rw [hmx, hmy]; exact hxy.ne') htie
  have hyeven := hy.even x hx.isFinite (by rw [hmx, hmy]; exact hxy.ne) htie.symm
  rw [bits_mod_two] at hxeven hyeven
  -- two even places are not next to each other
  obtain ⟨z, hz, hzf⟩ := exists_ordinal (i := x.ordinal + 1)
    (Nat.lt_trans (by omega) (isFinite_iff.1 hy.isFinite))
  have hxz : place x.ordinal < place z.ordinal := place_strictMono (by omega)
  have hzy : place z.ordinal < place y.ordinal := place_strictMono (by omega)
  have hmid : r - place x.ordinal = place y.ordinal - r := by
    rw [hmx, hmy] at htie
    rcases abs_eq_abs.1 htie with h | h
    · linarith
    · linarith
  have hnear : |r - place x.ordinal| ≤ |r - place z.ordinal| := by
    have := hx.nearest z hzf
    rwa [hmx, magnitude_eq hzf] at this
  have hnearer : |r - place z.ordinal| < |r - place x.ordinal| := by
    rw [abs_of_nonneg (by linarith : 0 ≤ r - place x.ordinal), abs_lt]
    constructor
    · linarith
    · linarith
  exact absurd hnear (not_le.2 hnearer)

/-- **Rounding has one result** up to the sign. -/
theorem RoundsTo.ordinal_unique (hx : x.RoundsTo r) (hy : y.RoundsTo r) :
    x.ordinal = y.ordinal :=
  Nat.le_antisymm (hy.ordinal_le hx) (hx.ordinal_le hy)

end Binary64
end LuaSource
