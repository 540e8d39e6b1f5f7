/-
The shortest decimal rounds to the number that it was made from. `Shortest.search` compares
natural numbers only, quarters of the last place with multiples of a power of ten. The
comparisons are exact (`Shortest.quarters_le_iff`), so the decimal that it takes lies between
the points halfway to the neighbours, and that is all rounding asks for.

How the grids are ordered, which candidate is preferred and where the search starts play no
part in this. They matter for the length of the decimal, not for what it reads back as.
-/
import LuaSource.Number.Shortest
import LuaSource.Proofs.RoundToNearest

namespace LuaSource
namespace Shortest

open Binary64 (significand exponent place Between)

variable {m n d i : Nat} {q k : Int}

/-! ## Exact comparisons -/

theorem zpow_mul_pow_neg {a : ℚ} (ha : a ≠ 0) (e : Int) :
    a ^ e * a ^ (-e).toNat = a ^ e.toNat := by
  rw [← zpow_natCast a (-e).toNat, ← zpow_natCast a e.toNat, ← zpow_add₀ ha]
  congr 1
  omega

theorem ratio_snd_pos (e k : Int) : 0 < (ratio e k).2 :=
  Nat.mul_pos (Nat.pow_pos (by decide)) (Nat.pow_pos (by decide))

theorem ratio_eq (e k : Int) : ((ratio e k).1 : ℚ) * 10 ^ k = (ratio e k).2 * 2 ^ e := by
  have hten := zpow_mul_pow_neg (show (10 : ℚ) ≠ 0 by norm_num) k
  have htwo := zpow_mul_pow_neg (show (2 : ℚ) ≠ 0 by norm_num) e
  simp only [ratio, Nat.pow_eq]
  push_cast
  rw [← htwo, ← hten]
  ring

/-- What one unit is worth when `2 ^ e` and `10 ^ k` are measured by `ratio e k`. -/
def unit (e k : Int) : ℚ := 10 ^ k / (ratio e k).2

theorem unit_pos (e k : Int) : 0 < unit e k :=
  div_pos (zpow_pos (by norm_num) k) (Nat.cast_pos.2 (ratio_snd_pos e k))

theorem quarters_eq (a : Nat) (e k : Int) :
    ((a * (ratio e k).1 : Nat) : ℚ) * unit e k = a * 2 ^ e := by
  have hden : ((ratio e k).2 : ℚ) ≠ 0 := (Nat.cast_pos.2 (ratio_snd_pos e k)).ne'
  rw [unit, Nat.cast_mul, mul_assoc, ← mul_div_assoc, ratio_eq, mul_div_cancel_left₀ _ hden]

theorem multiple_eq (d : Nat) (e k : Int) :
    ((d * (ratio e k).2 : Nat) : ℚ) * unit e k = d * 10 ^ k := by
  have hden : ((ratio e k).2 : ℚ) ≠ 0 := (Nat.cast_pos.2 (ratio_snd_pos e k)).ne'
  rw [unit, Nat.cast_mul, mul_assoc, mul_div_cancel₀ _ hden]

theorem quarters_le_iff (a d : Nat) (e k : Int) :
    a * (ratio e k).1 ≤ d * (ratio e k).2 ↔ (a : ℚ) * 2 ^ e ≤ d * 10 ^ k := by
  rw [← quarters_eq a e k, ← multiple_eq d e k, mul_le_mul_iff_left₀ (unit_pos e k), Nat.cast_le]

theorem le_quarters_iff (a d : Nat) (e k : Int) :
    d * (ratio e k).2 ≤ a * (ratio e k).1 ↔ (d : ℚ) * 10 ^ k ≤ a * 2 ^ e := by
  rw [← quarters_eq a e k, ← multiple_eq d e k, mul_le_mul_iff_left₀ (unit_pos e k), Nat.cast_le]

/-- The ends of what reads back as `m * 2 ^ q`. -/
def low (m : Nat) (q : Int) : ℚ := ((4 * m - gapBelow m q : Nat) : ℚ) * 2 ^ (q - 2)

def high (m : Nat) (q : Int) : ℚ := ((4 * m + gapAbove : Nat) : ℚ) * 2 ^ (q - 2)

/-- `readsBack` is exact: it admits what lies between the ends, and the ends of an even number. -/
theorem between_of_readsBack (h : readsBack m q k d = true) :
    low m q ≤ d * 10 ^ k ∧ d * 10 ^ k ≤ high m q ∧
      (low m q = d * 10 ^ k ∨ d * 10 ^ k = high m q → m % 2 = 0) := by
  simp only [readsBack] at h
  by_cases heven : m % 2 = 0
  · rw [if_pos heven, Bool.and_eq_true, decide_eq_true_eq, decide_eq_true_eq] at h
    exact ⟨(quarters_le_iff _ _ _ _).1 h.1, (le_quarters_iff _ _ _ _).1 h.2, fun _ => heven⟩
  · rw [if_neg heven, Bool.and_eq_true, decide_eq_true_eq, decide_eq_true_eq] at h
    have hlow : low m q < d * 10 ^ k := by
      rw [← not_le, low, ← le_quarters_iff, Nat.not_le]
      exact h.1
    have hhigh : d * 10 ^ k < high m q := by
      rw [← not_le, high, ← quarters_le_iff, Nat.not_le]
      exact h.2
    refine ⟨hlow.le, hhigh.le, ?_⟩
    rintro (he | he)
    · exact absurd he hlow.ne
    · exact absurd he hhigh.ne

/-! ## Halfway to the neighbours -/

theorem zpow_two_sub_two (e : Int) : (2 : ℚ) ^ e = 4 * 2 ^ (e - 2) := by
  rw [zpow_sub₀ two_ne_zero]
  norm_num
  ring

theorem high_eq (i : Nat) : place i + place (i + 1) = 2 * high (significand i) (exponent i) := by
  rw [Binary64.place_succ, place, high, gapAbove, zpow_two_sub_two (exponent i)]
  push_cast
  ring

/-- `gapBelow` is half the distance of the number below, in quarters: one where a binade
begins, and two elsewhere. -/
theorem gapBelow_mul (i : Nat) :
    (gapBelow (significand (i + 1)) (exponent (i + 1)) : ℚ) * 2 ^ (exponent (i + 1) - 2) * 2 =
      2 ^ exponent i := by
  by_cases hbinade : exponent (i + 1) = exponent i
  · have hgap : gapBelow (significand (i + 1)) (exponent (i + 1)) = 2 := by
      rw [gapBelow, if_neg]
      rintro ⟨hm, hq⟩
      simp only [exponent, significand, Nat.pow_eq] at hbinade hm hq
      split_ifs at hm <;> omega
    rw [hgap, hbinade, zpow_two_sub_two (exponent i)]
    push_cast
    ring
  · have he : exponent (i + 1) = exponent i + 1 := by
      simp only [exponent] at hbinade ⊢
      omega
    have hgap : gapBelow (significand (i + 1)) (exponent (i + 1)) = 1 := by
      rw [gapBelow, if_pos]
      simp only [exponent, significand, Nat.pow_eq] at hbinade ⊢
      split_ifs <;> omega
    have hpow : exponent (i + 1) - 2 = exponent i - 1 := by omega
    rw [hgap, hpow, zpow_sub_one₀ two_ne_zero, Nat.cast_one]
    ring

theorem low_eq (hi : 0 < i) :
    place (i - 1) + place i = 2 * low (significand i) (exponent i) := by
  obtain ⟨j, rfl⟩ : ∃ j, i = j + 1 := ⟨i - 1, by omega⟩
  have hgap : gapBelow (significand (j + 1)) (exponent (j + 1)) ≤ 4 * significand (j + 1) := by
    have := Binary64.significand_pos hi
    rw [gapBelow]
    split_ifs <;> omega
  have hstep := Binary64.place_succ j
  have hhalf := gapBelow_mul j
  have hplace : place (j + 1) = significand (j + 1) * (4 * 2 ^ (exponent (j + 1) - 2)) := by
    rw [place, zpow_two_sub_two]
  rw [Nat.add_sub_cancel, low, Nat.cast_sub hgap]
  push_cast
  linear_combination -hstep + 2 * hplace + hhalf

theorem between_place_of_readsBack (hi : 0 < i)
    (h : readsBack (significand i) (exponent i) k d = true) : Between i (d * 10 ^ k) := by
  obtain ⟨hlow, hhigh, heven⟩ := between_of_readsBack h
  rw [Binary64.significand_mod_two] at heven
  refine ⟨fun _ => ?_, ?_, fun _ he => ?_, fun he => ?_⟩
  · rw [low_eq hi]; linarith
  · rw [high_eq i]; linarith
  · rw [low_eq hi] at he
    exact heven (.inl (by linarith))
  · rw [high_eq i] at he
    exact heven (.inr (by linarith))

/-! ## The search -/

theorem readsBack_of_nearest? (h : nearest? m q k = some d) : readsBack m q k d = true := by
  simp only [nearest?] at h
  split at h
  · split at h <;> cases h <;> assumption
  · cases h; assumption
  · cases h; assumption
  · cases h

/-- The finest grid holds the number itself. -/
theorem exact_toRat (m : Nat) (q : Int) : (exact m q).toRat = m * 2 ^ q := by
  rcases le_total 0 q with hq | hq
  · have hneg : (-q).toNat = 0 := by omega
    have hpow : (2 : ℚ) ^ q.toNat = 2 ^ q := by
      rw [← zpow_natCast, Int.toNat_of_nonneg hq]
    rw [Decimal.toRat, exact, finest, min_eq_right hq, hneg]
    simp only [Nat.pow_eq]
    push_cast
    rw [hpow]
    ring
  · have hpos : q.toNat = 0 := by omega
    have hten : (10 : ℚ) ^ q = 5 ^ q * 2 ^ q := by
      rw [← mul_zpow]
      norm_num
    have hfive := zpow_mul_pow_neg (show (5 : ℚ) ≠ 0 by norm_num) q
    rw [hpos, pow_zero] at hfive
    rw [Decimal.toRat, exact, finest, min_eq_left hq, hpos, hten]
    simp only [Nat.pow_eq]
    push_cast
    linear_combination (m * 2 ^ q : ℚ) * hfive

/-- Wherever the search starts, it stays between the ends. -/
theorem between_search (hi : 0 < i) (n : Nat) :
    Between i (search (significand i) (exponent i) n).toRat := by
  induction n with
  | zero =>
    -- On the finest grid no interval is looked at: the number itself is there.
    rw [search, exact_toRat]
    exact Between.self i
  | succ n ih =>
    rw [search]
    cases h : nearest? (significand i) (exponent i) (finest (exponent i) + (n + 1)) with
    | some d => exact between_place_of_readsBack hi (readsBack_of_nearest? h)
    | none => exact ih

end Shortest

/-- **The shortest decimal reads back**: it rounds to the number, whatever the sign. -/
theorem shortest_roundsTo {x : Binary64} {negative : Bool} {m : Nat} {q : Int}
    (h : x.value = .finite negative m q) : x.RoundsTo (shortest m q).toRat := by
  obtain ⟨hfin, -, rfl, rfl⟩ := Binary64.of_value_finite h
  refine Binary64.RoundsTo.of_between hfin ?_
  rcases Nat.eq_zero_or_pos x.ordinal with hzero | hpos
  · rw [hzero]
    have hrat : (shortest (Binary64.significand 0) (Binary64.exponent 0)).toRat =
        Binary64.place 0 := by
      rw [Binary64.place_zero, shortest, if_pos (by rfl), Decimal.toRat]
      norm_num
    rw [hrat]
    exact Binary64.Between.self 0
  · have hm : Binary64.significand x.ordinal ≠ 0 := (Binary64.significand_pos hpos).ne'
    rw [shortest, if_neg hm]
    exact Shortest.between_search hpos _

end LuaSource
