/-
Reading long strings: from an opening bracket of some level to the first
closing bracket of that level. A line break right after the opening bracket is
no part of the string, and the others all come out as line feeds.
-/
import LuaSource.LineBreak
import LuaSource.LongBracket
import LuaSource.Remainder

namespace LuaSource
namespace LongBracket

/-- The level of the opening bracket that a text starts with, and the text
after the bracket. -/
def opening? : List Char → Option (Nat × List Char)
  | '[' :: cs =>
    match cs.dropWhile (· == '=') with
    | '[' :: rest => some ((cs.takeWhile (· == '=')).length, rest)
    | _ => none
  | _ => none

/-- The text before the first closing bracket of level `n`, and the text after
the bracket. -/
def content? (n : Nat) : List Char → Option (List Char × List Char)
  | [] => none
  | c :: cs =>
    match remainder? (closing n) (c :: cs) with
    | some rest => some ([], rest)
    | none => (content? n cs).map fun (s, rest) => (c :: s, rest)

def read? (cs : List Char) : Option (List Char × List Char) := do
  let (n, cs) ← opening? cs
  let (s, rest) ← content? n ((LineBreak.skip? cs).getD cs)
  pure (LineBreak.normalize s, rest)

theorem length_lt_of_opening? {cs rest : List Char} {n : Nat} (h : opening? cs = some (n, rest)) :
    rest.length < cs.length := by
  unfold opening? at h
  split at h
  · rename_i cs
    split at h
    · rename_i rest' hd
      have hle : (cs.dropWhile (· == '=')).length ≤ cs.length := (List.dropWhile_sublist _).length_le
      simp only [Option.some.injEq, Prod.mk.injEq] at h
      rw [hd, List.length_cons] at hle
      rw [← h.2, List.length_cons]
      omega
    · simp at h
  · simp at h

theorem length_closing (n : Nat) : (closing n).length = n + 2 := by simp [closing]

theorem length_lt_of_content? {n : Nat} : ∀ {cs s rest : List Char},
    content? n cs = some (s, rest) → rest.length < cs.length
  | [], _, _, h => by simp [content?] at h
  | c :: cs, _, _, h => by
    rw [content?] at h
    split at h
    · rename_i r hr
      have hl := congrArg List.length (remainder?_eq_some_iff.1 hr)
      simp only [Option.some.injEq, Prod.mk.injEq] at h
      rw [List.length_append, length_closing] at hl
      rw [← h.2]
      omega
    · obtain ⟨⟨s', r⟩, hr, he⟩ := Option.map_eq_some_iff.1 h
      have ih := length_lt_of_content? hr
      simp only [Prod.mk.injEq] at he
      rw [← he.2, List.length_cons]
      omega

theorem length_skip?_le (cs : List Char) : ((LineBreak.skip? cs).getD cs).length ≤ cs.length := by
  unfold LineBreak.skip?
  split <;> simp only [Option.getD_some, Option.getD_none, List.length_cons] <;> omega

theorem length_lt_of_read? {cs s rest : List Char} (h : read? cs = some (s, rest)) :
    rest.length < cs.length := by
  simp only [read?, Option.bind_eq_bind, Option.bind_eq_some_iff, Option.pure_def,
    Option.some.injEq, Prod.mk.injEq, Prod.exists] at h
  obtain ⟨n, r, ho, s', rest', hc, _, rfl⟩ := h
  have h1 := length_lt_of_opening? ho
  have h2 := length_lt_of_content? hc
  have h3 := length_skip?_le r
  omega

end LongBracket
end LuaSource
