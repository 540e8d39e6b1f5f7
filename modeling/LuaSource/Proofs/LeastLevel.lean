/-
The level of a long bracket is the least that will do. At the level chosen the bracket that
ends a text is the first one of its level, so nothing but its own end closes it. At every
lower level there is one before it: the text holds it, or the text ends in all of it but the
last `]`, and the bracket put after the text completes it.

The search asks of a level the two questions of `Blocks`. They come to one: does a closing
bracket of that level start inside the text, once the text has its own bracket after it
(`mem_taken_iff_blocks`, `mem_taken_iff_closes`)? A bracket cannot start in one and end beyond
the other, which is what the runs of equals signs are for (`closing_prefix_iff`).
-/
import LuaSource.Proofs.LongBracketReadBack
import Mathlib.Data.Nat.Find

namespace LuaSource
namespace LongBracket

variable {n : Nat} {raw cs : List Char}

/-! ## First closing brackets -/

/-- What the search asks of a level: the text holds a closing bracket of the level, or ends in
one that lacks only the last `]`. -/
def Blocks (raw : List Char) (n : Nat) : Prop :=
  closing n <:+: raw ∨ ']' :: List.replicate n '=' <:+ raw

/-- The first closing bracket of level `n` in a text starts at `i`. -/
structure FirstCloses (n : Nat) (cs : List Char) (i : Nat) : Prop where
  closes : closing n <+: cs.drop i
  first : ∀ j < i, ¬ closing n <+: cs.drop j

theorem FirstCloses.exists_le {i : Nat} (h : closing n <+: cs.drop i) :
    ∃ j ≤ i, FirstCloses n cs j := by
  have hex : ∃ j, closing n <+: cs.drop j := ⟨i, h⟩
  exact ⟨Nat.find hex, Nat.find_min' hex h, Nat.find_spec hex, fun j hj => Nat.find_min hex hj⟩

theorem FirstCloses.content? {i : Nat} (h : FirstCloses n cs i) :
    content? n cs = some (cs.take i, cs.drop (i + (n + 2))) := by
  induction i generalizing cs with
  | zero =>
    obtain ⟨rest, hrest⟩ := h.closes
    rw [List.drop_zero] at hrest
    rw [← hrest, content?_closing, ← List.drop_drop, List.drop_zero,
      List.drop_left' (length_closing n), List.take_zero]
  | succ i ih =>
    cases cs with
    | nil =>
      have hlen := h.closes.length_le
      rw [length_closing] at hlen
      simp at hlen
    | cons c cs =>
      have hc : ¬ closing n <+: c :: cs := h.first 0 (Nat.succ_pos i)
      have hcs : FirstCloses n cs i :=
        ⟨h.closes, fun j hj => h.first (j + 1) (Nat.succ_lt_succ hj)⟩
      rw [content?_cons hc, ih hcs, Nat.add_right_comm]
      rfl

/-! ## Taken levels -/

theorem closing_prefix_cons_iff {c : Char} :
    (closing n <+: c :: cs ∨ ']' :: List.replicate n '=' = c :: cs) ↔ c = ']' ∧ run? cs = some n := by
  rw [run?_eq_some_iff]
  constructor
  · rintro (⟨rest, h⟩ | h)
    · simp only [closing, List.cons_append, List.append_assoc, List.cons.injEq] at h
      exact ⟨h.1.symm, .inr ⟨rest, h.2.symm⟩⟩
    · simp only [List.cons.injEq] at h
      exact ⟨h.1.symm, .inl h.2.symm⟩
  · rintro ⟨rfl, rfl | ⟨rest, rfl⟩⟩
    · exact .inr rfl
    · exact .inl ⟨rest, by simp [closing]⟩

/-- A level is taken just if one of the two questions is answered with yes. -/
theorem mem_taken_iff_blocks : n ∈ taken raw ↔ Blocks raw n := by
  induction raw with
  | nil => simp [taken, Blocks, closing]
  | cons c cs ih =>
    rw [mem_taken_cons, ih, ← closing_prefix_cons_iff, Blocks, Blocks, List.infix_cons_iff,
      List.suffix_cons_iff, or_or_or_comm]

/-- A level is taken just if, with the closing bracket of the level after the text, one starts
inside the text. -/
theorem mem_taken_iff_closes :
    n ∈ taken raw ↔ ∃ i < raw.length, closing n <+: (raw ++ closing n).drop i := by
  induction raw with
  | nil => simp [taken]
  | cons c cs ih =>
    have hc : closing n <+: c :: cs ++ closing n ↔ c = ']' ∧ run? cs = some n := by
      rw [← List.append_nil (c :: cs ++ closing n)]
      exact closing_prefix_iff
    rw [mem_taken_cons, ih, ← hc]
    constructor
    · rintro (h | ⟨i, hi, h⟩)
      · exact ⟨0, Nat.succ_pos _, h⟩
      · exact ⟨i + 1, Nat.succ_lt_succ hi, h⟩
    · rintro ⟨i, hi, h⟩
      cases i with
      | zero => exact .inl h
      | succ i => exact .inr ⟨i, Nat.lt_of_succ_lt_succ hi, h⟩

theorem blocks_iff_firstCloses :
    Blocks raw n ↔ ∃ i < raw.length, FirstCloses n (raw ++ closing n) i := by
  rw [← mem_taken_iff_blocks, mem_taken_iff_closes]
  constructor
  · rintro ⟨i, hi, h⟩
    obtain ⟨j, hj, hf⟩ := FirstCloses.exists_le h
    exact ⟨j, by omega, hf⟩
  · rintro ⟨i, hi, h⟩
    exact ⟨i, hi, h.closes⟩

/-- At a level that is free, the bracket after the text is the first one. -/
theorem firstCloses_of_not_blocks (h : ¬ Blocks raw n) :
    FirstCloses n (raw ++ closing n) raw.length := by
  refine ⟨by simp, fun j hj hc => h ?_⟩
  rw [← mem_taken_iff_blocks, mem_taken_iff_closes]
  exact ⟨j, hj, hc⟩

/-! ## The least level -/

theorem mem_of_lt_firstFree {ns : List Nat} {n m : Nat} (hn : n ≤ m) (h : m < firstFree ns n) :
    m ∈ ns := by
  fun_induction firstFree ns n with
  | case1 n hmem ih =>
    by_cases hm : m = n
    · rwa [hm]
    · exact ih (by omega) h
  | case2 n hmem => omega

theorem blocks_of_lt_level {m : Nat} (h : m < level raw) : Blocks raw m :=
  mem_taken_iff_blocks.1 (mem_of_lt_firstFree (Nat.zero_le m) h)

theorem not_blocks_level (raw : List Char) : ¬ Blocks raw (level raw) := fun h =>
  firstFree_not_mem (taken raw) 0 (mem_taken_iff_blocks.2 h)

/-! ## Reading at any level -/

/-- What comes after the bracket of a text does not close it earlier. -/
theorem FirstCloses.append {i : Nat} (h : FirstCloses n (raw ++ closing n) i)
    (hi : i ≤ raw.length) (rest : List Char) : FirstCloses n (raw ++ closing n ++ rest) i := by
  have hdrop : ∀ j ≤ raw.length,
      (raw ++ closing n ++ rest).drop j = (raw ++ closing n).drop j ++ rest := fun j hj => by
    rw [List.drop_append_of_le_length (by rw [List.length_append]; omega)]
  refine ⟨?_, fun j hj hc => h.first j hj ?_⟩
  · rw [hdrop i hi]
    exact h.closes.trans (List.prefix_append _ _)
  · rw [hdrop j (by omega)] at hc
    refine List.prefix_of_prefix_length_le hc (List.prefix_append _ _) ?_
    rw [List.length_drop, List.length_append]
    omega

/-- Bracketed at any level, a text is read up to the first closing bracket of that level. -/
theorem FirstCloses.read?_wrap {i : Nat} (h : FirstCloses n (raw ++ closing n) i)
    (hi : i ≤ raw.length) (rest : List Char) :
    read? (wrap n raw ++ rest) =
      some (LineBreak.normalize (raw.take i), (raw ++ closing n).drop (i + (n + 2)) ++ rest) := by
  have hc := (h.append hi rest).content?
  have ht : (raw ++ closing n ++ rest).take i = raw.take i := by
    rw [List.append_assoc, List.take_append_of_le_length hi]
  have hd : (raw ++ closing n ++ rest).drop (i + (n + 2)) =
      (raw ++ closing n).drop (i + (n + 2)) ++ rest := by
    rw [List.drop_append_of_le_length (by rw [List.length_append, length_closing]; omega)]
  rw [ht, hd] at hc
  rw [wrap, read?, List.append_assoc, List.append_assoc, List.append_assoc, opening?_append]
  simp only [← List.append_assoc, Option.bind_eq_bind, Option.bind_some, skip?_leadingBreak, hc,
    Option.pure_def]

/-- **The level is safe and the least.** The two questions of the search are one: a level
blocks just if the first closing bracket of the text and its own bracket starts inside the
text. A long string is at the first level that does not, so it is closed at its own end and
read as a whole. At every lower level the text would be closed before its end, and a reader
would stop there, with some of the text or of its bracket left over. -/
theorem level_least (raw rest : List Char) :
    (longString (String.ofList raw)).toList = wrap (level raw) raw ∧
      (∀ m, Blocks raw m ↔ ∃ i < raw.length, FirstCloses m (raw ++ closing m) i) ∧
      ¬ Blocks raw (level raw) ∧
      FirstCloses (level raw) (raw ++ closing (level raw)) raw.length ∧
      read? (wrap (level raw) raw ++ rest) = some (LineBreak.normalize raw, rest) ∧
      ∀ m < level raw, Blocks raw m ∧ ∃ i < raw.length, FirstCloses m (raw ++ closing m) i ∧
        ∃ left, left ≠ [] ∧
          read? (wrap m raw ++ rest) = some (LineBreak.normalize (raw.take i), left ++ rest) := by
  have hn : FirstCloses (level raw) (raw ++ closing (level raw)) raw.length :=
    firstCloses_of_not_blocks (not_blocks_level raw)
  have htext : (longString (String.ofList raw)).toList = wrap (level raw) raw := by
    rw [toList_longString, String.toList_ofList, encode]
  refine ⟨htext, fun m => blocks_iff_firstCloses, not_blocks_level raw, hn, ?_, fun m hm => ?_⟩
  · have hlen : (raw ++ closing (level raw)).length = raw.length + (level raw + 2) := by
      rw [List.length_append, length_closing]
    have hr := hn.read?_wrap (Nat.le_refl _) rest
    rwa [List.take_length, List.drop_eq_nil_of_le (Nat.le_of_eq hlen), List.nil_append] at hr
  · have hb := blocks_of_lt_level hm
    obtain ⟨i, hi, hf⟩ := blocks_iff_firstCloses.1 hb
    refine ⟨hb, i, hi, hf, _, ?_, hf.read?_wrap (Nat.le_of_lt hi) rest⟩
    rw [← List.length_pos_iff, List.length_drop, List.length_append, length_closing]
    omega

/-- Two levels are passed over: one in the text, and one that the bracket would complete. -/
example : level "a]]b]=".toList = 2 := by decide +kernel

end LongBracket
end LuaSource
