/-
Numerals read back. The text of a decimal is one of three spellings of a float (`FloatText`),
and each of them is read as a float with the number that it spells, whatever the digits are.
An integer is digits alone. It stays an integer, since no digit takes it above the greatest one.

Zeros that only fill places change the digits and the exponent of what is read, not the number
(`Decimal.toRat`).
-/
import LuaSource.Number.Literal
import LuaSource.Number.Rounding
import LuaSource.Proofs.LexemeFacts
import Mathlib.Tactic.Ring

namespace LuaSource
namespace Numeral

/-! ## Rows of digits -/

/-- A row of digits that is not empty. -/
structure Digits (cs : List Char) : Prop where
  ne_nil : cs ≠ []
  isDigit : ∀ c ∈ cs, c.isDigit = true

namespace Digits

variable {cs cs' : List Char}

theorem toDigits (n : Nat) : Digits (Nat.toDigits 10 n) :=
  ⟨Nat.toDigits_ne_nil, fun _ => Nat.isDigit_of_mem_toDigits (by decide) (by decide)⟩

theorem append (h : Digits cs) (h' : ∀ c ∈ cs', c.isDigit = true) : Digits (cs ++ cs') where
  ne_nil := List.append_ne_nil_of_left_ne_nil h.ne_nil cs'
  isDigit c hc := (List.mem_append.1 hc).elim (h.isDigit c) (h' c)

theorem zeros (n : Nat) : ∀ c ∈ List.replicate n '0', c.isDigit = true := fun _ hc => by
  rw [List.eq_of_mem_replicate hc]
  rfl

theorem zero : Digits ['0'] := ⟨List.cons_ne_nil _ _, zeros 1⟩

theorem digits? (h : Digits cs) : digits? cs = some (Nat.ofDigitChars 10 cs 0) := by
  rw [Numeral.digits?, if_pos ⟨h.ne_nil, List.all_eq_true.2 h.isDigit⟩]

theorem span (h : Digits cs) (rest : List Char) (hr : ∀ c ∈ rest.head?, c.isDigit = false) :
    (cs ++ rest).takeWhile Char.isDigit = cs ∧ (cs ++ rest).dropWhile Char.isDigit = rest :=
  Lexeme.span_append h.isDigit hr

theorem span_nil (h : Digits cs) :
    cs.takeWhile Char.isDigit = cs ∧ cs.dropWhile Char.isDigit = [] := by
  have := h.span [] (by rintro _ ⟨⟩)
  rwa [List.append_nil] at this

theorem head_ne {c d : Char} (h : Digits (c :: cs)) (hd : d.isDigit = false) : c ≠ d := by
  rintro rfl
  rw [h.isDigit c List.mem_cons_self] at hd
  cases hd

end Digits

/-! ## Floats -/

/-- A float as it is written, and the number that it spells. There is a point with a digit on
each side, or an exponent after digits that may have one. -/
inductive FloatText : List Char → Decimal → Prop
  | pointed {whole fraction : List Char} : Digits whole → Digits fraction →
      FloatText (whole ++ '.' :: fraction)
        ⟨Nat.ofDigitChars 10 (whole ++ fraction) 0, -fraction.length⟩
  | scaled {whole : List Char} (e : Int) : Digits whole →
      FloatText (whole ++ 'e' :: Decimal.intChars e) ⟨Nat.ofDigitChars 10 whole 0, e⟩
  | pointedScaled {whole fraction : List Char} (e : Int) : Digits whole → Digits fraction →
      FloatText (whole ++ '.' :: (fraction ++ 'e' :: Decimal.intChars e))
        ⟨Nat.ofDigitChars 10 (whole ++ fraction) 0, e - fraction.length⟩

theorem exponent?_intChars (e : Int) : exponent? ('e' :: Decimal.intChars e) = some e := by
  cases e with
  | ofNat n =>
    have hn := Digits.toDigits n
    have hvalue := hn.digits?
    rw [Nat.ofDigitChars_ten_toDigits] at hvalue
    have hhead : ∀ {d : Char}, d.isDigit = false → ∀ ds, Nat.toDigits 10 n = d :: ds → False :=
      fun hd ds he => (he ▸ hn).head_ne hd rfl
    rw [Decimal.intChars, exponent?, if_pos (.inl rfl), hvalue]
    · rfl
    · exact hhead (by decide)
    · exact hhead (by decide)
  | negSucc n =>
    have hvalue := (Digits.toDigits (n + 1)).digits?
    rw [Nat.ofDigitChars_ten_toDigits] at hvalue
    rw [Decimal.intChars, exponent?, if_pos (.inl rfl), hvalue]
    rfl

theorem float?_eq {whole fraction rest : List Char} {e : Int} (h : Digits (whole ++ fraction))
    (he : exponent? rest = some e) : float? whole fraction rest =
      some (.float ⟨Nat.ofDigitChars 10 (whole ++ fraction) 0, e - fraction.length⟩) := by
  rw [float?, h.digits?, he]

theorem read?_point {whole : List Char} (h : Digits whole) (rest : List Char) :
    read? (whole ++ '.' :: rest) =
      float? whole (rest.takeWhile Char.isDigit) (rest.dropWhile Char.isDigit) := by
  obtain ⟨htake, hdrop⟩ := h.span ('.' :: rest) (by rintro _ ⟨⟩; decide)
  simp only [read?, htake, hdrop]

theorem FloatText.read? {cs : List Char} {x : Decimal} (h : FloatText cs x) :
    Numeral.read? cs = some (.float x) := by
  cases h with
  | @pointed whole fraction hw hf =>
    obtain ⟨htake, hdrop⟩ := hf.span_nil
    rw [read?_point hw, htake, hdrop, float?_eq (hw.append hf.isDigit) (e := 0) rfl, Int.zero_sub]
  | @scaled whole e hw =>
    obtain ⟨htake, hdrop⟩ := hw.span ('e' :: Decimal.intChars e) (by rintro _ ⟨⟩; decide)
    have hwhole : Digits (whole ++ []) := by rwa [List.append_nil]
    have hfloat := float?_eq hwhole (exponent?_intChars e)
    rw [List.append_nil, List.length_nil, Int.natCast_zero, Int.sub_zero] at hfloat
    simp only [Numeral.read?, htake, hdrop]
    exact hfloat
  | @pointedScaled whole fraction e hw hf =>
    obtain ⟨htake, hdrop⟩ := hf.span ('e' :: Decimal.intChars e) (by rintro _ ⟨⟩; decide)
    rw [read?_point hw, htake, hdrop, float?_eq (hw.append hf.isDigit) (exponent?_intChars e)]

/-- The text is a float's and spells the number `r`. -/
def Denotes (cs : List Char) (r : ℚ) : Prop := ∃ x, FloatText cs x ∧ x.toRat = r

end Numeral

namespace Decimal

open Numeral (Digits FloatText Denotes)

variable {ds : List Char}

/-- Zeros before the digits add nothing, also after a point. -/
theorem denotes_leadingZeros (h : Digits ds) (n : Nat) :
    Denotes ('0' :: '.' :: (List.replicate n '0' ++ ds))
      (Nat.ofDigitChars 10 ds 0 * 10 ^ (-(n + ds.length : Nat) : Int)) := by
  have hfraction : Digits (List.replicate n '0' ++ ds) :=
    ⟨List.append_ne_nil_of_right_ne_nil _ h.ne_nil, fun c hc =>
      (List.mem_append.1 hc).elim (Digits.zeros n c) (h.isDigit c)⟩
  have hvalue : Nat.ofDigitChars 10 (['0'] ++ (List.replicate n '0' ++ ds)) 0 =
      Nat.ofDigitChars 10 ds 0 := by
    rw [Nat.ofDigitChars_append, Nat.ofDigitChars_append]
    show Nat.ofDigitChars 10 ds (Nat.ofDigitChars 10 (List.replicate n '0') 0) = _
    rw [Nat.ofDigitChars_replicate_zero, Nat.mul_zero]
  refine ⟨_, .pointed .zero hfraction, ?_⟩
  rw [toRat, hvalue, List.length_append, List.length_replicate]

/-- Zeros after the digits are powers of ten, and one after the point is nothing. -/
theorem denotes_trailingZeros (h : Digits ds) (n : Nat) :
    Denotes (ds ++ List.replicate n '0' ++ ['.', '0'])
      (Nat.ofDigitChars 10 ds 0 * 10 ^ (n : Int)) := by
  refine ⟨_, .pointed (h.append (Digits.zeros n)) .zero, ?_⟩
  have hvalue : Nat.ofDigitChars 10 (ds ++ List.replicate n '0' ++ ['0']) 0 =
      10 * (10 ^ n * Nat.ofDigitChars 10 ds 0) := by
    rw [Nat.ofDigitChars_append, Nat.ofDigitChars_append, Nat.ofDigitChars_replicate_zero]
    rfl
  rw [toRat, hvalue, List.length_singleton, zpow_natCast]
  push_cast
  rw [zpow_neg_one]
  ring

theorem denotes_split (h : Digits ds) {n : Nat} (hpos : 0 < n) (hlt : n < ds.length) :
    Denotes (ds.take n ++ '.' :: ds.drop n)
      (Nat.ofDigitChars 10 ds 0 * 10 ^ (-(ds.length - n : Nat) : Int)) := by
  have htake : Digits (ds.take n) :=
    ⟨fun he => (List.take_eq_nil_iff.1 he).elim hpos.ne' h.ne_nil,
      fun c hc => h.isDigit c (List.mem_of_mem_take hc)⟩
  have hdrop : Digits (ds.drop n) :=
    ⟨fun he => absurd (List.drop_eq_nil_iff.1 he) (Nat.not_le_of_lt hlt),
      fun c hc => h.isDigit c (List.mem_of_mem_drop hc)⟩
  refine ⟨_, .pointed htake hdrop, ?_⟩
  rw [toRat, List.take_append_drop, List.length_drop]

theorem denotes_positional (h : Digits ds) (lead : Int) :
    Denotes (positional ds lead) (Nat.ofDigitChars 10 ds 0 * 10 ^ (lead + 1 - ds.length)) := by
  rw [positional]
  by_cases hneg : lead < 0
  · have he : lead + 1 - ds.length = -(((-lead).toNat - 1 + ds.length : Nat) : Int) := by omega
    rw [if_pos hneg, he]
    exact denotes_leadingZeros h _
  · rw [if_neg hneg]
    by_cases hwhole : ds.length ≤ lead.toNat + 1
    · have he : lead + 1 - ds.length = ((lead.toNat + 1 - ds.length : Nat) : Int) := by omega
      dsimp only
      rw [if_pos hwhole, he]
      exact denotes_trailingZeros h _
    · have he : lead + 1 - ds.length = -((ds.length - (lead.toNat + 1) : Nat) : Int) := by omega
      dsimp only
      rw [if_neg hwhole, he]
      exact denotes_split h (Nat.succ_pos _) (Nat.lt_of_not_le hwhole)

theorem denotes_scientific (h : Digits ds) (lead : Int) :
    Denotes (scientific ds lead) (Nat.ofDigitChars 10 ds 0 * 10 ^ (lead + 1 - ds.length)) := by
  cases ds with
  | nil => exact absurd rfl h.ne_nil
  | cons d rest =>
    have hd : Digits [d] :=
      ⟨List.cons_ne_nil _ _, fun c hc => h.isDigit c (List.mem_singleton.1 hc ▸ List.mem_cons_self)⟩
    have he : lead + 1 - (d :: rest).length = lead - rest.length := by
      rw [List.length_cons]
      omega
    rw [he]
    cases rest with
    | nil =>
      refine ⟨_, .scaled lead hd, ?_⟩
      rw [toRat, List.length_nil, Int.natCast_zero, Int.sub_zero]
    | cons d' rest =>
      have hrest : Digits (d' :: rest) :=
        ⟨List.cons_ne_nil _ _, fun c hc => h.isDigit c (List.mem_cons_of_mem d hc)⟩
      exact ⟨_, .pointedScaled lead hd hrest, rfl⟩

/-- **The text of a decimal** spells it as a float, on whichever side of the window it is. -/
theorem denotes_text (w : Window) (x : Decimal) : Denotes (x.text w) x.toRat := by
  have hrat : x.toRat =
      Nat.ofDigitChars 10 x.chars 0 * 10 ^ (x.lead + 1 - x.chars.length) := by
    have he : x.lead + 1 - x.chars.length = x.exponent := by rw [lead]; omega
    rw [he, chars, Nat.ofDigitChars_ten_toDigits, toRat]
  rw [text, hrat]
  by_cases hw : w.mem x.lead = true
  · rw [if_pos hw]
    exact denotes_positional (Digits.toDigits _) _
  · rw [if_neg hw]
    exact denotes_scientific (Digits.toDigits _) _

end Decimal

/-! ## Integers -/

namespace Numeral

theorem le_ofDigitChars (cs : List Char) (acc : Nat) : acc ≤ Nat.ofDigitChars 10 cs acc := by
  rw [Nat.ofDigitChars_eq_ofDigitChars_zero]
  exact Nat.le_add_right_of_le (Nat.le_mul_of_pos_left _ (Nat.pow_pos (by decide)))

/-- Accumulating stops for nothing up to the greatest integer: no earlier value is greater
than the last. -/
theorem accumulate?_eq : ∀ (cs : List Char) (acc : Nat),
    Nat.ofDigitChars 10 cs acc ≤ greatest →
      accumulate? acc cs = some (Nat.ofDigitChars 10 cs acc)
  | [], _, _ => rfl
  | c :: cs, acc, h => by
    rw [Nat.ofDigitChars_cons] at h ⊢
    have hacc : 10 * acc + (c.toNat - '0'.toNat) ≤ greatest := Nat.le_trans (le_ofDigitChars cs _) h
    rw [accumulate?, if_pos hacc]
    exact accumulate?_eq cs _ h

theorem read?_toDigits {n : Nat} (h : n ≤ greatest) :
    read? (Nat.toDigits 10 n) = some (.integer n) := by
  have hn := Digits.toDigits n
  obtain ⟨htake, hdrop⟩ := hn.span_nil
  have hacc := accumulate?_eq (Nat.toDigits 10 n) 0
    (by rw [Nat.ofDigitChars_ten_toDigits]; exact h)
  simp only [read?, htake, hdrop, hn.digits?, hacc, Nat.ofDigitChars_ten_toDigits]
  rfl

end Numeral

/-! ## Operands -/

namespace Quantity

open Numeral (Digits FloatText)

/-- The text is neither signed nor a name. -/
def StartsWithDigit (cs : List Char) : Prop := ∃ c ∈ cs.head?, c.isDigit = true

namespace StartsWithDigit

variable {cs rest : List Char}

theorem of_digits (h : Digits cs) (rest : List Char) : StartsWithDigit (cs ++ rest) := by
  cases cs with
  | nil => exact absurd rfl h.ne_nil
  | cons c cs => exact ⟨c, rfl, h.isDigit c List.mem_cons_self⟩

theorem of_toDigits (n : Nat) : StartsWithDigit (Nat.toDigits 10 n) := by
  have := of_digits (Digits.toDigits n) []
  rwa [List.append_nil] at this

theorem of_floatText {x : Decimal} (h : FloatText cs x) : StartsWithDigit cs := by
  cases h with
  | pointed hw _ => exact of_digits hw _
  | scaled _ hw => exact of_digits hw _
  | pointedScaled _ hw _ => exact of_digits hw _

theorem ne {d : Char} (h : StartsWithDigit cs) (hr : rest.head? = some d)
    (hd : d.isDigit = false) : cs ≠ rest := by
  rintro rfl
  obtain ⟨c, hc, hdigit⟩ := h
  rw [hr] at hc
  cases hc
  rw [hd] at hdigit
  cases hdigit

end StartsWithDigit

/-- What a numeral denotes without a sign. -/
def ofNumeral : Numeral → Quantity
  | .integer n => .integer n
  | .float x => .float false x

theorem operand?_of_startsWithDigit {cs : List Char} (h : StartsWithDigit cs) :
    operand? cs = (Numeral.read? cs).map ofNumeral := by
  rw [operand?, if_neg (h.ne (d := 'm') (by decide) (by decide)),
    if_neg (h.ne (d := 'm') (by decide) (by decide))]
  rcases Numeral.read? cs with _ | (_ | _) <;> rfl

/-- A numeral is read with its sign, if it has one. -/
theorem read?_signed (negative : Bool) {cs : List Char} (h : StartsWithDigit cs) :
    read? (Literal.signed negative cs) = (Numeral.read? cs).map fun v =>
      if negative then (ofNumeral v).negate else ofNumeral v := by
  have hoperand := operand?_of_startsWithDigit h
  cases negative with
  | true =>
    show (operand? cs).map negate = _
    rw [hoperand, Option.map_map]
    rfl
  | false =>
    rw [Literal.signed, if_neg (by decide), read?]
    · rw [if_neg (h.ne (d := '(') (by decide) (by decide)), hoperand]
      rfl
    · intro rest
      exact h.ne rfl (by decide)

theorem read?_signed_floatText (negative : Bool) {cs : List Char} {x : Decimal}
    (h : FloatText cs x) : read? (Literal.signed negative cs) = some (.float negative x) := by
  rw [read?_signed negative (.of_floatText h), h.read?]
  cases negative <;> rfl

theorem read?_signed_toDigits (negative : Bool) {n : Nat} (h : n ≤ Numeral.greatest) :
    read? (Literal.signed negative (Nat.toDigits 10 n)) =
      some (.integer (if negative then -n else n)) := by
  rw [read?_signed negative (.of_toDigits n), Numeral.read?_toDigits h]
  cases negative <;> rfl

/-- Only the least integer has a magnitude that is no integer. -/
theorem natAbs_le_greatest {v : Int64} (h : v ≠ Int64.minValue) :
    v.toInt.natAbs ≤ Numeral.greatest := by
  have hlow : v.toInt ≠ -2 ^ 63 := by
    intro he
    exact h (by rw [← Int64.toInt_inj, Int64.toInt_minValue, he])
  have hleast := v.le_toInt
  have hhigh := v.toInt_lt
  have hgreatest : Numeral.greatest = 2 ^ 63 - 1 := rfl
  omega

theorem toList_integer_of_ne {v : Int64} (h : v ≠ Int64.minValue) :
    (LuaSource.integer v).toList =
      Literal.signed (decide (v.toInt < 0)) (Nat.toDigits 10 v.toInt.natAbs) := by
  rw [LuaSource.integer, String.toList_ofList, Literal.integerChars, if_neg h]
  cases v.toInt with
  | ofNat n => rfl
  | negSucc n =>
    rw [decide_eq_true (Int.negSucc_lt_zero n)]
    rfl

/-- **An integer reads back** as the integer it is, at the ends of the range too. -/
theorem read?_integer (v : Int64) : read? (LuaSource.integer v).toList = some (.integer v.toInt) := by
  by_cases hmin : v = Int64.minValue
  · rw [hmin, LuaSource.integer, String.toList_ofList]
    decide +kernel
  · rw [toList_integer_of_ne hmin, read?_signed_toDigits _ (natAbs_le_greatest hmin)]
    congr 2
    by_cases hneg : v.toInt < 0
    · rw [decide_eq_true hneg, if_pos rfl]
      omega
    · rw [decide_eq_false hneg, if_neg (by decide)]
      omega

end Quantity
end LuaSource
