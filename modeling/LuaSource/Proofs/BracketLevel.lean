/-
What the level of a long bracket is for: at a level that the text does not
take, no closing bracket starts inside the text, not even one that the bracket
put after the text would complete. And the level chosen is not taken.
-/
import LuaSource.LongBracket

namespace LuaSource
namespace LongBracket

theorem firstFree_not_mem (ns : List Nat) (n : Nat) : firstFree ns n ∉ ns := by
  fun_induction firstFree ns n with
  | case1 n h ih => exact ih
  | case2 n h => exact h

/-! ## Runs of equals signs -/

theorem takeWhile_equals (cs : List Char) :
    cs.takeWhile (· == '=') = List.replicate (cs.takeWhile (· == '=')).length '=' :=
  List.eq_replicate_iff.2 ⟨rfl, fun c hc => by simpa using List.all_eq_true.1 List.all_takeWhile c hc⟩

theorem run?_eq_some_iff {cs : List Char} {n : Nat} :
    run? cs = some n ↔
      cs = List.replicate n '=' ∨ ∃ rest, cs = List.replicate n '=' ++ ']' :: rest := by
  constructor
  · intro h
    have hcs := List.takeWhile_append_dropWhile (p := (· == '=')) (l := cs)
    rw [takeWhile_equals cs] at hcs
    unfold run? at h
    split at h
    · rename_i hd
      rw [hd, List.append_nil] at hcs
      cases h
      exact .inl hcs.symm
    · rename_i rest hd
      rw [hd] at hcs
      cases h
      exact .inr ⟨rest, hcs.symm⟩
    · cases h
  · rintro (rfl | ⟨rest, rfl⟩)
    · simp [run?]
    · simp [run?]

theorem run?_of_append_eq {n : Nat} {cs rest rest' : List Char}
    (h : cs ++ ']' :: rest = List.replicate n '=' ++ ']' :: rest') : run? cs = some n := by
  rw [run?_eq_some_iff]
  rcases List.append_eq_append_iff.1 h with ⟨as, hn, hr⟩ | ⟨as, hc, hr⟩
  · cases as with
    | nil => exact .inl (by simpa using hn.symm)
    | cons a as =>
      have ha : a ∈ List.replicate n '=' := by rw [hn]; simp
      rw [List.eq_of_mem_replicate ha] at hr
      simp at hr
  · cases as with
    | nil => exact .inl (by simpa using hc)
    | cons a as =>
      rw [List.cons_append, List.cons.injEq] at hr
      rw [← hr.1] at hc
      exact .inr ⟨as, hc⟩

/-! ## Closing brackets in a text -/

/-- A closing bracket starts with the `c` of a bracketed text just if `c` is a
`]` and what follows it in the text is a run of the level's length. -/
theorem closing_prefix_iff {n : Nat} {c : Char} {cs rest : List Char} :
    closing n <+: c :: cs ++ closing n ++ rest ↔ c = ']' ∧ run? cs = some n := by
  constructor
  · rintro ⟨rest', h⟩
    simp only [closing, List.cons_append, List.append_assoc, List.cons.injEq] at h
    exact ⟨h.1.symm, run?_of_append_eq h.2.symm⟩
  · rintro ⟨rfl, h⟩
    rcases run?_eq_some_iff.1 h with rfl | ⟨t, rfl⟩ <;> simp [closing, List.prefix_append_right_inj]

theorem mem_taken_cons {n : Nat} {c : Char} {cs : List Char} :
    n ∈ taken (c :: cs) ↔ (c = ']' ∧ run? cs = some n) ∨ n ∈ taken cs := by
  rw [taken]
  split <;> simp [*]

end LongBracket
end LuaSource
