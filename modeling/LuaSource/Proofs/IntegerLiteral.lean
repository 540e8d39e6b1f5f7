/-
An integer literal denotes its integer. The reader of a numeral sees the digits and no sign, and
it takes digits for a float once they add up to more than the greatest integer. The magnitude of
a negative integer may be one more than that, but of the least one only, and that one is written
by its name. So every other integer has digits that stay an integer on the way, whatever the
sign in front of them (`IntegerText`).
-/
import LuaSource.Command
import LuaSource.Proofs.NumeralReadBack

namespace LuaSource
namespace Numeral

/-- Digits as they are written for the integer `n`: with no zeros in front that add nothing, and
such that no row of them from the first on is more than the greatest integer. -/
structure IntegerText (cs : List Char) (n : Nat) : Prop where
  digits : Digits cs
  lead : cs.head? = some '0' → cs = ['0']
  within : ∀ k, Nat.ofDigitChars 10 (cs.take k) 0 ≤ greatest
  value : Nat.ofDigitChars 10 cs 0 = n

theorem IntegerText.read? {cs : List Char} {n : Nat} (h : IntegerText cs n) :
    Numeral.read? cs = some (.integer n) := by
  obtain ⟨htake, hdrop⟩ := h.digits.span_nil
  have hle : Nat.ofDigitChars 10 cs 0 ≤ greatest := by
    have := h.within cs.length
    rwa [List.take_length] at this
  have hacc := accumulate?_eq cs 0 hle
  simp only [Numeral.read?, htake, hdrop, h.digits.digits?, hacc, h.value]
  rfl

theorem head?_toDigits_ne {n : Nat} (h : 0 < n) : (Nat.toDigits 10 n).head? ≠ some '0' := by
  induction n using Nat.strongRecOn with
  | ind n ih =>
    by_cases hn : n < 10
    · rw [Nat.toDigits_of_lt_base hn, List.head?_cons, ne_eq, Option.some.injEq]
      intro hzero
      have hdigit := Nat.toNat_digitChar_of_lt_ten hn
      rw [hzero] at hdigit
      simp at hdigit
      omega
    · have hhead := ih (n / 10) (by omega) (by omega)
      rw [Nat.toDigits_of_base_le (by decide) (Nat.le_of_not_lt hn), List.head?_append]
      cases hd : (Nat.toDigits 10 (n / 10)).head? with
      | none => exact absurd (List.head?_eq_none_iff.1 hd) Nat.toDigits_ne_nil
      | some c => rwa [hd] at hhead

theorem integerText_toDigits {n : Nat} (h : n ≤ greatest) : IntegerText (Nat.toDigits 10 n) n where
  digits := .toDigits n
  lead hzero := by
    rcases Nat.eq_zero_or_pos n with rfl | hpos
    · rfl
    · exact absurd hzero (head?_toDigits_ne hpos)
  within k := by
    have hle := le_ofDigitChars ((Nat.toDigits 10 n).drop k)
      (Nat.ofDigitChars 10 ((Nat.toDigits 10 n).take k) 0)
    rw [← Nat.ofDigitChars_append, List.take_append_drop, Nat.ofDigitChars_ten_toDigits] at hle
    exact Nat.le_trans hle h
  value := Nat.ofDigitChars_ten_toDigits

end Numeral

/-- **Integer literals are faithful.** What is put for an integer reads back as that integer. It
is the name of the least one, or the digits of its magnitude, with a minus in front if it is
negative. The digits are read as an integer, never as a float. So two integers never share a
text. -/
theorem integer_faithful :
    (∀ (b : Builder) (v : Int64), ∃ text,
      Command.apply b (.put (.integer v)) = .ok (b.append text) ∧
      Quantity.read? text.toList = some (.integer v.toInt) ∧
      if v = Int64.minValue then text = "math.mininteger"
      else ∃ cs n, text.toList = Literal.signed (decide (v.toInt < 0)) cs ∧
        Numeral.IntegerText cs n ∧ Numeral.read? cs = some (.integer n) ∧
        v.toInt = if v.toInt < 0 then -(n : Int) else n) ∧
    ∀ v w : Int64, integer v = integer w → v = w := by
  constructor
  · intro b v
    refine ⟨integer v, rfl, Quantity.read?_integer v, ?_⟩
    by_cases hmin : v = Int64.minValue
    · rw [if_pos hmin, hmin]
      decide +kernel
    · rw [if_neg hmin]
      have htext := Numeral.integerText_toDigits (Quantity.natAbs_le_greatest hmin)
      refine ⟨_, _, Quantity.toList_integer_of_ne hmin, htext, htext.read?, ?_⟩
      split <;> omega
  · intro v w h
    have hv := Quantity.read?_integer v
    rw [h, Quantity.read?_integer w, Option.some.injEq, Quantity.integer.injEq] at hv
    exact (Int64.toInt_inj.1 hv).symm

/-- The greatest integer and the one after the least have the same digits, and the least one
has a name. -/
theorem integer_faithful_extremes :
    integer Int64.maxValue = "9223372036854775807" ∧
    integer (-Int64.maxValue) = "-9223372036854775807" ∧
    integer Int64.minValue = "math.mininteger" ∧
    (∀ v, integer v = "math.mininteger" → v = Int64.minValue) := by
  have hmin : integer Int64.minValue = "math.mininteger" := by decide +kernel
  refine ⟨by decide +kernel, by decide +kernel, hmin, fun v hv => ?_⟩
  exact integer_faithful.2 v Int64.minValue (hv.trans hmin.symm)

end LuaSource
