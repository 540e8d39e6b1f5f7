/-
A short string literal reads back as the text that it was made from, and the
reader stops right after it, whatever the source goes on with.

The induction is on the text. Its step is one character: however that
character is spelled, the reader takes the whole of the spelling and nothing
of what follows (`content?_encodeChar`). For a numeric escape this is so since
it has three digits, the most that the reader takes, so that a digit after it
stays where it is.
-/
import LuaSource.Quoted.Reader

namespace LuaSource
namespace Quoted

/-! ## Escapes -/

theorem isDigit_digitChar_mod (n : Nat) : (n % 10).digitChar.isDigit = true := by
  rw [Nat.isDigit_digitChar, decide_eq_true_eq]
  exact Nat.mod_lt n (by decide)

theorem leadingDigits_threeDigits (n : Nat) (rest : List Char) :
    leadingDigits 3 (threeDigits n ++ rest) = (threeDigits n, rest) := by
  simp only [threeDigits, List.cons_append, List.nil_append, leadingDigits, isDigit_digitChar_mod,
    if_true]

theorem ofDigitChars_threeDigits {n : Nat} (hn : n < 1000) :
    Nat.ofDigitChars 10 (threeDigits n) 0 = n := by
  have h : ∀ m : Nat, m % 10 < 10 := fun m => Nat.mod_lt _ (by decide)
  simp only [threeDigits, Nat.ofDigitChars_cons_digitChar_of_lt_ten (h _), Nat.ofDigitChars_nil]
  omega

/-- A numeric escape names its character and ends with its third digit. -/
theorem escaped?_threeDigits {n : Nat} (hn : n < 128) (rest : List Char) :
    escaped? (threeDigits n ++ rest) = some (Char.ofNat n, rest) := by
  have hd := leadingDigits_threeDigits n rest
  rw [threeDigits, List.cons_append] at hd ⊢
  simp only [escaped?, isDigit_digitChar_mod, if_true, hd]
  rw [← threeDigits, ofDigitChars_threeDigits (by omega), if_pos hn]

/-- The letter that stands for a character is no digit and stands for no other. -/
theorem ofLetter?_of_letter? {c l : Char} (h : letter? c = some l) :
    l.isDigit = false ∧ ofLetter? l = some c := by
  unfold letter? at h
  split at h <;> cases h <;> exact ⟨rfl, rfl⟩

theorem escaped?_letter {c l : Char} (h : letter? c = some l) (rest : List Char) :
    escaped? (l :: rest) = some (c, rest) := by
  obtain ⟨hd, hl⟩ := ofLetter?_of_letter? h
  simp [escaped?, hd, hl]

/-! ## Characters -/

theorem content?_escape {cs rest : List Char} {x : Char} (h : escaped? cs = some (x, rest)) :
    content? '"' ('\\' :: cs) = (content? '"' rest).map fun (s, rest) => (x :: s, rest) := by
  rw [content?, if_neg (by decide), if_neg (by decide), if_pos rfl]
  split
  · rename_i hn
    rw [h] at hn
    cases hn
  · rename_i hs
    rw [h] at hs
    cases hs
    rfl

/-- What has no letter needs no escape, the control characters apart. -/
theorem content?_verbatim {c : Char} (hl : letter? c = none) (cs : List Char) :
    content? '"' (c :: cs) = (content? '"' cs).map fun (s, rest) => (c :: s, rest) := by
  have hq : c ≠ '"' := by rintro rfl; simp [letter?] at hl
  have hn : c ≠ '\n' := by rintro rfl; simp [letter?] at hl
  have hr : c ≠ '\r' := by rintro rfl; simp [letter?] at hl
  have hb : c ≠ '\\' := by rintro rfl; simp [letter?] at hl
  rw [content?, if_neg hq, if_neg (by simp [LineBreak.isBreak, hn, hr]), if_neg hb]

theorem lt_of_isControl {c : Char} (h : isControl c = true) : c.toNat < 128 := by
  simp only [isControl, Bool.or_eq_true, decide_eq_true_eq, beq_iff_eq] at h
  omega

/-- **One character.** The reader takes its spelling, and what follows is read
as if nothing had been there. -/
theorem content?_encodeChar (c : Char) (cs : List Char) :
    content? '"' (encodeChar c ++ cs) = (content? '"' cs).map fun (s, rest) => (c :: s, rest) := by
  unfold encodeChar
  split
  · rename_i l hl
    exact content?_escape (escaped?_letter hl cs)
  · rename_i hl
    split
    · rename_i hc
      have he := escaped?_threeDigits (lt_of_isControl hc) cs
      rw [Char.ofNat_toNat] at he
      exact content?_escape he
    · exact content?_verbatim hl cs

/-! ## Texts -/

theorem content?_closed (rest : List Char) : ∀ raw : List Char,
    content? '"' (raw.flatMap encodeChar ++ '"' :: rest) = some (raw, rest)
  | [] => by rw [List.flatMap_nil, List.nil_append, content?, if_pos rfl]
  | c :: raw => by
    rw [List.flatMap_cons, List.append_assoc, content?_encodeChar, content?_closed rest raw]
    rfl

theorem read?_encode (raw rest : List Char) : read? (encode raw ++ rest) = some (raw, rest) := by
  rw [encode, List.append_assoc, List.cons_append, List.singleton_append, read?]
  exact content?_closed rest raw

end Quoted

/-- **Literals read back.** A reader that starts at the literal of `raw`, in
front of any `rest`, comes out with exactly `raw` and leaves exactly `rest`. -/
theorem read?_quote_append (raw rest : String) :
    Quoted.read? (quote raw ++ rest).toList = some (raw.toList, rest.toList) := by
  rw [String.toList_append, toList_quote, Quoted.read?_encode]

end LuaSource
