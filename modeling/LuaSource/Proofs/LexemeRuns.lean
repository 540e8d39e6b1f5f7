/-
Runs of the lexer: which lexemes it takes from a text, one after the other, and what it then
stands before. A run may stop anywhere, so it can be told of a text that cannot be cut to its
end. A text that can be is read to its end by one (`reads_of_all?`).

What a single step of a run can be is said once (`Taken`), and whatever holds of all steps goes
by its cases.
-/
import LuaSource.Proofs.LexemeFacts

namespace LuaSource
namespace Lexeme

/-! ## One lexeme -/

def isComment : Lexeme → Bool
  | .shortComment _ | .longComment _ => true
  | _ => false

theorem isComment_of_comment? {cs rest : List Char} {x : Lexeme}
    (h : comment? cs = some (x, rest)) : x.isComment = true := by
  unfold comment? at h
  split at h
  · obtain ⟨⟨s, r⟩, -, he⟩ := Option.map_eq_some_iff.1 h
    cases he
    rfl
  · cases h
    rfl

/-- How a lexeme can come to be taken from a text, and what it leaves. -/
inductive Taken : List Char → Lexeme → List Char → Prop
  | comment {cs rest : List Char} {x : Lexeme} :
    comment? cs = some (x, rest) → Taken ('-' :: '-' :: cs) x rest
  | quoted {c : Char} {cs s rest : List Char} :
    c = '"' ∨ c = '\x27' → Quoted.read? (c :: cs) = some (s, rest) →
      Taken (c :: cs) (.string (String.ofList s)) rest
  | word {c : Char} {cs rest : List Char} {x : Lexeme} :
    Name.starts c = true → word (c :: cs) = (x, rest) → Taken (c :: cs) x rest
  | numeral {c : Char} {cs : List Char} {n : Numeral} :
    Numeral.read? ((c :: cs).take (numeralLength (c :: cs))) = some n →
      Taken (c :: cs) (.numeral n) ((c :: cs).drop (numeralLength (c :: cs)))
  | long {cs s rest : List Char} {opening : Nat × List Char} :
    LongBracket.opening? cs = some opening → LongBracket.read? cs = some (s, rest) →
      Taken cs (.string (String.ofList s)) rest
  | symbol {cs rest : List Char} {s : Symbol} :
    Symbol.read? cs = some (s, rest) → Taken cs (.symbol s) rest

theorem Taken.of_symbol? {cs rest : List Char} {x : Lexeme} (h : symbol? cs = some (x, rest)) :
    Taken cs x rest := by
  unfold symbol? at h
  split at h
  · rename_i ho
    obtain ⟨⟨s, r⟩, hr, he⟩ := Option.map_eq_some_iff.1 h
    cases he
    exact .long ho hr
  · cases h
  · obtain ⟨⟨s, r⟩, hr, he⟩ := Option.map_eq_some_iff.1 h
    cases he
    exact .symbol hr

theorem Taken.of_next? {cs rest : List Char} {x : Lexeme} (h : next? cs = some (x, rest)) :
    Taken cs x rest := by
  unfold next? at h
  split at h
  · cases h
  · exact .comment h
  · split at h
    · rename_i hq
      obtain ⟨⟨s, r⟩, hr, he⟩ := Option.map_eq_some_iff.1 h
      cases he
      exact .quoted hq hr
    · split at h
      · rename_i hs
        exact .word hs (Option.some.inj h)
      · split at h
        · obtain ⟨n, hn, he⟩ := Option.map_eq_some_iff.1 h
          cases he
          exact .numeral hn
        · exact .of_symbol? h

/-! ## Runs -/

/-- From `cs` on, the lexer takes the lexemes `xs` and then stands before `rest`. Blanks are
passed over one at a time. -/
inductive Reads : List Char → List Lexeme → List Char → Prop
  | here (cs : List Char) : Reads cs [] cs
  | blank {c : Char} {cs rest : List Char} {xs : List Lexeme} :
    isBlank c = true → Reads cs xs rest → Reads (c :: cs) xs rest
  | lexeme {cs cs' rest : List Char} {x : Lexeme} {xs : List Lexeme} :
    next? cs = some (x, cs') → Reads cs' xs rest → Reads cs (x :: xs) rest

theorem Reads.of_dropWhile {cs rest : List Char} {xs : List Lexeme}
    (h : Reads (cs.dropWhile isBlank) xs rest) : Reads cs xs rest := by
  induction cs with
  | nil => exact h
  | cons c cs ih =>
    by_cases hc : isBlank c = true
    · rw [List.dropWhile_cons_of_pos hc] at h
      exact .blank hc (ih h)
    · rwa [List.dropWhile_cons_of_neg hc] at h

theorem reads_of_all? {cs : List Char} {xs : List Lexeme} (h : all? cs = some xs) :
    Reads cs xs [] := by
  induction hlen : cs.length using Nat.strongRecOn generalizing cs xs with
  | ind n ih =>
    refine .of_dropWhile ?_
    rw [all?_eq] at h
    cases hd : cs.dropWhile isBlank with
    | nil =>
      rw [hd] at h
      cases h
      exact .here []
    | cons c start =>
      rw [hd] at h
      obtain ⟨⟨x, rest⟩, hn, hrest⟩ := Option.bind_eq_some_iff.1 h
      obtain ⟨ys, hys, rfl⟩ := Option.map_eq_some_iff.1 hrest
      have hlt : rest.length < n := by
        have hnext := length_lt_of_next? hn
        have hdrop := length_dropWhile_le isBlank cs
        rw [hd] at hdrop
        omega
      exact .lexeme hn (ih rest.length hlt hys rfl)

end Lexeme
end LuaSource
