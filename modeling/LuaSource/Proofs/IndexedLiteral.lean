/-
String literals as indices. A bracket put in front of a short string is a bracket, since a quote
continues nothing. A bracket put in front of a long string is not: the lexer takes it together
with the first bracket of the literal for the opening of a long string of level 0, of whatever
level the literal is (`next?_bracketed_longString`). That string runs to the first `]]`. There is
one at the latest where the literal ends, as its own last bracket has the other one after it; but
the text may hold one too, and then the rest of the text is read as code.
-/
import LuaSource.Command
import LuaSource.Proofs.LeastLevel
import LuaSource.Proofs.LexemeRuns
import LuaSource.Proofs.RunFacts

namespace LuaSource

/-! ## Long strings in brackets -/

namespace LongBracket

/-- With a bracket on each side, a long string of any level is a text between brackets of
level 0. -/
theorem bracketed_encode (raw : List Char) : ∃ front,
    '[' :: (encode raw ++ [']']) = '[' :: '[' :: (front ++ closing 0) ∧
      LineBreak.skip? (front ++ closing 0) = none := by
  refine ⟨List.replicate (level raw) '=' ++
    '[' :: (leadingBreak raw ++ raw ++ ']' :: List.replicate (level raw) '='), ?_, ?_⟩
  · simp [encode, wrap, opening, closing]
  · cases level raw <;> rfl

theorem read?_bracketed_encode (raw : List Char) : ∃ body i,
    '[' :: (encode raw ++ [']']) = '[' :: '[' :: body ∧ FirstCloses 0 body i ∧
      read? ('[' :: '[' :: body) = some (LineBreak.normalize (body.take i), body.drop (i + 2)) := by
  obtain ⟨front, htext, hskip⟩ := bracketed_encode raw
  have hclosing : closing 0 <+: (front ++ closing 0).drop front.length :=
    List.drop_left.symm ▸ List.prefix_rfl
  obtain ⟨i, -, hi⟩ := FirstCloses.exists_le hclosing
  refine ⟨front ++ closing 0, i, htext, hi, ?_⟩
  have ho : opening? ('[' :: '[' :: (front ++ closing 0)) = some (0, front ++ closing 0) := rfl
  simp only [read?, ho, hskip, Option.getD_none, hi.content?, Option.bind_eq_bind,
    Option.bind_some, Option.pure_def]

end LongBracket

open LongBracket (FirstCloses)

namespace Lexeme

theorem next?_bracketed_longString (raw : String) : ∃ body i,
    '[' :: ((longString raw).toList ++ [']']) = '[' :: '[' :: body ∧ FirstCloses 0 body i ∧
      next? ('[' :: '[' :: body) =
        some (.string (String.ofList (LineBreak.normalize (body.take i))), body.drop (i + 2)) := by
  obtain ⟨body, i, htext, hi, hr⟩ := LongBracket.read?_bracketed_encode raw.toList
  refine ⟨body, i, by rw [toList_longString, htext], hi, ?_⟩
  have hn : next? ('[' :: '[' :: body) = (LongBracket.read? ('[' :: '[' :: body)).map
    fun read => (.string (String.ofList read.1), read.2) := rfl
  rw [hn, hr]
  rfl

def ofIndex (raw : String) : List Lexeme :=
  [.symbol .openBracket, .string raw, .symbol .closeBracket]

theorem all?_bracketed_quote (raw : String) :
    all? ('[' :: ((quote raw).toList ++ [']'])) = some (ofIndex raw) :=
  ((Lexes.bracketed raw).append .closeBracket).all?_eq

end Lexeme

/-! ## Indices -/

/-- The builder takes `text` both for an index with the text of the literal and for the literal
between two brackets. -/
def Builder.Indexed (b : Builder) (literal : Phrase) (text : String) : Prop :=
  Command.apply b (.put (.index literal.text)) = .ok (b.append text) ∧
    ∃ b', Accepts b [.put (.token (.mark .openBracket)), .put literal,
      .put (.token (.mark .closeBracket))] b' ∧ b'.render = b.render ++ text

theorem Builder.indexed {literal : Phrase} (h : literal.fault? = none) (b : Builder) :
    b.Indexed literal ("[" ++ literal.text ++ "]") := by
  refine ⟨rfl, _, .cons rfl (.cons (put_eq_ok_iff.2 ⟨h, rfl⟩) (.cons rfl .nil)), ?_⟩
  simp only [render_append, String.append_assoc]
  rfl

theorem toList_bracketed (s : String) : ("[" ++ s ++ "]").toList = '[' :: (s.toList ++ [']']) := by
  simp

/-- **Which literals stay literals as indices.** A short string does, whatever is in it: the
index is read as a bracket, the string and a bracket. A long string never does, whatever is in
it. The first two brackets are read as the opening of another long string, which goes on to
the first `]]`. -/
theorem Builder.index_reads_back (b : Builder) (raw : String) :
    (∃ text, b.Indexed (.shortString raw) text ∧
      Lexeme.all? text.toList = some (Lexeme.ofIndex raw)) ∧
    ∃ text, b.Indexed (.longString raw) text ∧
      Lexeme.all? text.toList ≠ some (Lexeme.ofIndex raw) ∧
      ∃ body i, text.toList = '[' :: '[' :: body ∧ FirstCloses 0 body i ∧
        Lexeme.next? text.toList =
          some (.string (String.ofList (LineBreak.normalize (body.take i))), body.drop (i + 2)) := by
  constructor
  · refine ⟨_, b.indexed rfl, ?_⟩
    rw [toList_bracketed]
    exact Lexeme.all?_bracketed_quote raw
  · obtain ⟨body, i, htext, hi, hn⟩ := Lexeme.next?_bracketed_longString raw
    have hl : ("[" ++ (Phrase.longString raw).text ++ "]").toList = '[' :: '[' :: body := by
      rw [toList_bracketed]
      exact htext
    rw [← hl] at hn
    refine ⟨_, b.indexed rfl, fun hall => ?_, body, i, hl, hi, hn⟩
    -- The first lexeme would have to be a bracket and is a string.
    rw [Lexeme.all?_of_next? hn] at hall
    obtain ⟨xs, -, he⟩ := Option.map_eq_some_iff.1 hall
    cases he

/-- An index with the long string of an empty text is no index. -/
theorem long_index_misread :
    ¬ ∀ raw : String, '\r' ∉ raw.toList → ∀ literal ∈ [Phrase.shortString raw, .longString raw],
      Lexeme.all? (Phrase.index literal.text).text.toList = some (Lexeme.ofIndex raw) := by
  intro h
  have hall := h "" (by decide) (.longString "") (by decide)
  have hn : Lexeme.next? (Phrase.index (Phrase.longString "").text).text.toList =
      some (.string "[", [']']) := by decide +kernel
  rw [Lexeme.all?_of_next? hn] at hall
  obtain ⟨xs, -, he⟩ := Option.map_eq_some_iff.1 hall
  cases he

/-- What is in the text after `]]` is read as code. -/
example : Lexeme.next? ("[" ++ longString "a]]b()--" ++ "]").toList =
    some (.string "=[a", "b()--]=]]".toList) := by
  decide +kernel

end LuaSource
