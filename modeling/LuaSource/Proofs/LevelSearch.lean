/-
The search for the level of a long bracket ends, and soon. It asks of one level after the other
whether the text blocks it, and nothing in it says when it has to stop. What bounds it is the
text: a blocked level has a `]` of its own there with exactly so many equals signs after it
(`Mark`). Marks of two levels have no character in common, since a mark goes on to its last
equals sign and the other starts with a bracket. So `n` levels that are all blocked take up
1 + 2 + … + n characters.
-/
import LuaSource.Proofs.LeastLevel
import Mathlib.Algebra.BigOperators.Intervals

namespace LuaSource
namespace LongBracket

variable {i j m n : Nat} {raw cs : List Char}

/-! ## The search round by round -/

instance (raw : List Char) : DecidablePred (Blocks raw) := fun n =>
  inferInstanceAs (Decidable (closing n <:+: raw ∨ ']' :: List.replicate n '=' <:+ raw))

/-- So many rounds of the search, from level `n` on. A round asks of one level whether the text
blocks it. -/
def search? (raw : List Char) : Nat → Nat → Option Nat
  | 0, _ => none
  | rounds + 1, n => if Blocks raw n then search? raw rounds (n + 1) else some n

/-- Rounds are spent on the levels that are blocked, and one on the level that is not. -/
theorem search?_eq : ∀ {rounds n : Nat}, n ≤ level raw →
    search? raw rounds n = if level raw < n + rounds then some (level raw) else none
  | 0, n, h => by
    rw [search?, if_neg (by omega)]
  | rounds + 1, n, h => by
    rw [search?]
    by_cases hn : n = level raw
    · rw [hn, if_neg (not_blocks_level raw), if_pos (by omega)]
    · have hle : n + 1 ≤ level raw := by omega
      rw [if_pos (blocks_of_lt_level hle), search?_eq hle, Nat.add_right_comm, Nat.add_assoc]

/-! ## Marks -/

/-- At `i` stands a `]` with `n` equals signs after it, and not one more. -/
structure Mark (cs : List Char) (i n : Nat) : Prop where
  bracket : cs[i]? = some ']'
  equals : ∀ k < n, cs[i + (k + 1)]? = some '='
  ends : cs[i + (n + 1)]? ≠ some '='

theorem Mark.of_append {s t : List Char} (ht : t.head? ≠ some '=') :
    Mark (s ++ (']' :: List.replicate n '=' ++ t)) s.length n where
  bracket := by simp
  equals k hk := by simp [List.getElem?_append, hk]
  ends := by simpa [List.getElem?_append, List.head?_eq_getElem?] using ht

theorem exists_mark (h : Blocks cs n) : ∃ i, Mark cs i n := by
  rcases h with ⟨s, t, rfl⟩ | ⟨s, rfl⟩
  · refine ⟨s.length, ?_⟩
    have hm : Mark (s ++ (']' :: List.replicate n '=' ++ ']' :: t)) s.length n :=
      .of_append (by simp)
    simpa [closing] using hm
  · refine ⟨s.length, ?_⟩
    have hm : Mark (s ++ (']' :: List.replicate n '=' ++ [])) s.length n := .of_append (by simp)
    rwa [List.append_nil] at hm

namespace Mark

theorem lt_length (h : Mark cs i n) : i + n < cs.length := by
  cases n with
  | zero => exact (List.getElem?_eq_some_iff.1 h.bracket).1
  | succ n => exact (List.getElem?_eq_some_iff.1 (h.equals n n.lt_succ_self)).1

/-- A mark that starts further on starts after the end. -/
theorem lt_of_lt (h : Mark cs i m) (h' : Mark cs j n) (hij : i < j) : i + m < j := by
  by_contra hle
  obtain ⟨k, rfl⟩ := Nat.exists_eq_add_of_lt hij
  have he := h.equals k (by omega)
  have hb := h'.bracket
  rw [Nat.add_assoc, he] at hb
  cases hb

theorem eq_of_eq (h : Mark cs i m) (h' : Mark cs i n) : m = n := by
  rcases Nat.lt_trichotomy m n with hlt | rfl | hlt
  · exact absurd (h'.equals m hlt) h.ends
  · rfl
  · exact absurd (h.equals n hlt) h'.ends

theorem apart (h : Mark cs i m) (h' : Mark cs j n) (hmn : m ≠ n) : i + m < j ∨ j + n < i := by
  rcases Nat.lt_trichotomy i j with hij | rfl | hij
  · exact .inl (h.lt_of_lt h' hij)
  · exact absurd (h.eq_of_eq h') hmn
  · exact .inr (h'.lt_of_lt h hij)

end Mark

/-! ## Counting characters -/

def places (i n : Nat) : Finset Nat := Finset.Ico i (i + (n + 1))

theorem card_places (i n : Nat) : (places i n).card = n + 1 := by
  rw [places, Nat.card_Ico, Nat.add_sub_cancel_left]

namespace Mark

theorem places_subset (h : Mark cs i n) : places i n ⊆ Finset.range cs.length := by
  intro k hk
  have hlt := h.lt_length
  rw [places, Finset.mem_Ico] at hk
  rw [Finset.mem_range]
  omega

theorem disjoint_places (h : Mark cs i m) (h' : Mark cs j n) (hmn : m ≠ n) :
    Disjoint (places i m) (places j n) := by
  have ha := h.apart h' hmn
  refine Finset.disjoint_left.2 fun k hk hk' => ?_
  rw [places, Finset.mem_Ico] at hk hk'
  omega

end Mark

theorem sum_range_add_one (n : Nat) : ∑ m ∈ Finset.range n, (m + 1) = n * (n + 1) / 2 := by
  have h := Finset.sum_range_id (n + 1)
  rwa [Finset.sum_range_succ', Nat.add_zero, Nat.add_sub_cancel, Nat.mul_comm] at h

/-- Marks of the first `n` levels fit into the text side by side. -/
theorem triangle_le_length {start : Nat → Nat} (h : ∀ m < n, Mark cs (start m) m) :
    n * (n + 1) / 2 ≤ cs.length := by
  have hdisjoint : ∀ m ∈ Finset.range n, ∀ m' ∈ Finset.range n, m ≠ m' →
      Disjoint (places (start m) m) (places (start m') m') := fun m hm m' hm' hne =>
    (h m (Finset.mem_range.1 hm)).disjoint_places (h m' (Finset.mem_range.1 hm')) hne
  have hinside : (Finset.range n).biUnion (fun m => places (start m) m) ⊆ Finset.range cs.length :=
    Finset.biUnion_subset.2 fun m hm => (h m (Finset.mem_range.1 hm)).places_subset
  calc n * (n + 1) / 2
      = ∑ m ∈ Finset.range n, (m + 1) := (sum_range_add_one n).symm
    _ = ∑ m ∈ Finset.range n, (places (start m) m).card :=
        Finset.sum_congr rfl fun m _ => (card_places (start m) m).symm
    _ = ((Finset.range n).biUnion fun m => places (start m) m).card :=
        (Finset.card_biUnion hdisjoint).symm
    _ ≤ (Finset.range cs.length).card := Finset.card_le_card hinside
    _ = cs.length := Finset.card_range _

/-! ## The whole bracket -/

theorem length_leadingBreak_le (raw : List Char) : (leadingBreak raw).length ≤ 2 := by
  unfold leadingBreak
  split <;> decide

theorem length_wrap_le (n : Nat) (raw : List Char) :
    (wrap n raw).length ≤ raw.length + (2 * n + 6) := by
  have hb := length_leadingBreak_le raw
  have ho : (opening n).length = n + 2 := by simp [opening]
  simp only [wrap, List.length_append, ho, length_closing]
  omega

/-- **The search ends, after few rounds.** It comes to the level of the bracket with one round
more than there are lower levels, and not before. Each of these has a mark of its own in the
text, apart from those of the others. So the level is at most about the square root of twice the
length of the text, and the brackets add little to it. -/
theorem search_ends (raw : String) :
    ∃ n, (∀ rounds, search? raw.toList rounds 0 = if n < rounds then some n else none) ∧
      n = level raw.toList ∧
      (∃ start : Nat → Nat, (∀ m < n, Mark raw.toList (start m) m) ∧
        ∀ m < n, ∀ m' < n, m ≠ m' → start m + m < start m' ∨ start m' + m' < start m) ∧
      n * (n + 1) / 2 ≤ raw.length ∧
      (longString raw).length ≤ raw.length + (2 * n + 6) := by
  have hmark : ∀ m < level raw.toList, ∃ i, Mark raw.toList i m := fun m hm =>
    exists_mark (blocks_of_lt_level hm)
  choose! start hstart using hmark
  refine ⟨level raw.toList, fun rounds => ?_, rfl, ⟨start, hstart, fun m hm m' hm' hne => ?_⟩, ?_, ?_⟩
  · rw [search?_eq (Nat.zero_le _), Nat.zero_add]
  · exact (hstart m hm).apart (hstart m' hm') hne
  · rw [← String.length_toList]
    exact triangle_le_length hstart
  · rw [← String.length_toList, ← String.length_toList, toList_longString]
    exact length_wrap_le _ raw.toList

/-- The shortest text that blocks three levels: six characters for the bound of six. -/
example : search? "]]=]==".toList 4 0 = some 3 ∧ search? "]]=]==".toList 3 0 = none := by
  decide +kernel

end LongBracket
end LuaSource
