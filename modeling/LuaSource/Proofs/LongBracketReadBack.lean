/-
A long string reads back as the text that it was made from, up to how the text
breaks its lines: every break comes out as one line feed.

Three things have to hold. The bracket that ends the string is the first one
of its level, which is what the level was chosen for (`content?_append`). The
break that the reader drops is the one that was put in front, all of it and
nothing of the text (`skip?_leadingBreak`). And what is left after that is the
text itself, so its breaks pair up as they do in the text alone.
-/
import LuaSource.LongBracket.Reader
import LuaSource.Proofs.BracketLevel

namespace LuaSource
namespace LongBracket

/-! ## Brackets -/

theorem opening?_append (n : Nat) (rest : List Char) :
    opening? (opening n ++ rest) = some (n, rest) := by
  have hd : ∀ a ∈ List.replicate n '=', (a == '=') = true := fun a ha => by
    simpa using List.eq_of_mem_replicate ha
  simp [opening, opening?, List.dropWhile_append_of_pos hd, List.takeWhile_append_of_pos hd]

theorem content?_closing (n : Nat) (rest : List Char) :
    content? n (closing n ++ rest) = some ([], rest) := by
  have hr := remainder?_append (closing n) rest
  cases hc : closing n ++ rest with
  | nil => simp [closing] at hc
  | cons c cs =>
    rw [hc] at hr
    rw [content?, hr]

theorem content?_cons {n : Nat} {c : Char} {cs : List Char} (h : ¬ closing n <+: c :: cs) :
    content? n (c :: cs) = (content? n cs).map fun (s, rest) => (c :: s, rest) := by
  have hr : remainder? (closing n) (c :: cs) = none :=
    Option.eq_none_iff_forall_ne_some.2 fun rest he =>
      h ⟨rest, (remainder?_eq_some_iff.1 he).symm⟩
  rw [content?, hr]

/-- The first closing bracket is the one after the text, if the text does not
take its level. -/
theorem content?_append {n : Nat} (rest : List Char) : ∀ {raw : List Char}, n ∉ taken raw →
    content? n (raw ++ closing n ++ rest) = some (raw, rest)
  | [], _ => content?_closing n rest
  | c :: raw, h => by
    rw [mem_taken_cons, not_or] at h
    have hc : ¬ closing n <+: c :: raw ++ closing n ++ rest := fun hp =>
      h.1 (closing_prefix_iff.1 hp)
    rw [List.cons_append, List.cons_append] at hc ⊢
    rw [content?_cons hc, content?_append rest h.2]
    rfl

/-! ## Line breaks -/

/-- The reader drops the break in front and no more. -/
theorem skip?_leadingBreak (n : Nat) (raw rest : List Char) :
    (LineBreak.skip? (leadingBreak raw ++ raw ++ closing n ++ rest)).getD
      (leadingBreak raw ++ raw ++ closing n ++ rest) = raw ++ closing n ++ rest := by
  unfold leadingBreak
  split
  · rfl
  · rfl
  · rename_i hr hn
    cases raw with
    | nil => rfl
    | cons c raw =>
      have hr : c ≠ '\r' := fun h => hr raw (by rw [h])
      have hn : c ≠ '\n' := fun h => hn raw (by rw [h])
      simp [LineBreak.skip?, hr, hn]

theorem read?_encode (raw rest : List Char) :
    read? (encode raw ++ rest) = some (LineBreak.normalize raw, rest) := by
  have hc := content?_append rest (firstFree_not_mem (taken raw) 0)
  rw [← level] at hc
  rw [encode, wrap, read?, List.append_assoc, List.append_assoc, List.append_assoc, opening?_append]
  simp only [← List.append_assoc, Option.bind_eq_bind, Option.bind_some, skip?_leadingBreak, hc,
    Option.pure_def]

end LongBracket

/-- Only carriage returns are made into something else. -/
theorem LineBreak.normalize_eq_self {cs : List Char} (h : '\r' ∉ cs) :
    LineBreak.normalize cs = cs := by
  fun_induction LineBreak.normalize cs with
  | case1 => rfl
  | case2 rest => simp at h
  | case3 rest => simp at h
  | case4 rest => simp at h
  | case5 c rest _ _ _ ih => rw [ih (fun hr => h (List.mem_cons_of_mem c hr))]

/-- **Long strings read back.** A reader that starts at the long string of
`raw`, in front of any `rest`, comes out with `raw`, its line breaks as line
feeds, and leaves exactly `rest`. Without carriage returns nothing of `raw`
changes. -/
theorem read?_longString_append (raw rest : String) :
    LongBracket.read? (longString raw ++ rest).toList =
        some (LineBreak.normalize raw.toList, rest.toList) ∧
      ('\r' ∉ raw.toList →
        LongBracket.read? (longString raw ++ rest).toList = some (raw.toList, rest.toList)) := by
  have h : LongBracket.read? (longString raw ++ rest).toList =
      some (LineBreak.normalize raw.toList, rest.toList) := by
    rw [String.toList_append, toList_longString, LongBracket.read?_encode]
  refine ⟨h, fun hr => ?_⟩
  rw [h, LineBreak.normalize_eq_self hr]

end LuaSource
