/-
What is left of a text after a given start.
-/

namespace LuaSource

/-- What `whole` has after `start`, if it starts with it. -/
def remainder? {α : Type} [DecidableEq α] : List α → List α → Option (List α)
  | [], whole => some whole
  | _ :: _, [] => none
  | a :: start, b :: whole => if a = b then remainder? start whole else none

theorem remainder?_eq_some_iff {α : Type} [DecidableEq α] : ∀ {start whole rest : List α},
    remainder? start whole = some rest ↔ whole = start ++ rest
  | [], whole, rest => by simp only [remainder?, Option.some.injEq, List.nil_append]
  | _ :: _, [], _ => by simp [remainder?]
  | a :: start, b :: whole, rest => by
    simp only [remainder?, List.cons_append, List.cons.injEq]
    split
    · rename_i h
      rw [remainder?_eq_some_iff]
      exact ⟨fun hw => ⟨h.symm, hw⟩, fun hw => hw.2⟩
    · rename_i h
      exact ⟨fun hw => by simp at hw, fun hw => absurd hw.1.symm h⟩

theorem remainder?_append {α : Type} [DecidableEq α] (start rest : List α) :
    remainder? start (start ++ rest) = some rest :=
  remainder?_eq_some_iff.2 rfl

end LuaSource
