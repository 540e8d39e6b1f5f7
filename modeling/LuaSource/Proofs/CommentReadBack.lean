/-
A comment reads back as the text that it was made from, and ends where it was meant to
end, so nothing of the text is ever read as code. A text with line breaks goes into a long
comment, and ends with its bracket because a long string does (`Proofs.LongBracketReadBack`).
A text of one line ends with the line; the blank before it keeps a bracket at its start from
opening a long comment.
-/
import LuaSource.Command
import LuaSource.Proofs.LexemeFacts
import LuaSource.Proofs.OneLine

namespace LuaSource

theorem comment_of_not_oneLine {text : String} (h : ¬ OneLine text) :
    comment text = "--" ++ longString text := by
  rw [comment, if_pos (any_isBreak_iff.2 h)]

namespace Lexeme

theorem comment?_longString (text : String) (rest : List Char) :
    comment? ((longString text).toList ++ rest) =
      some (.longComment (String.ofList (LineBreak.normalize text.toList)), rest) := by
  obtain ⟨rest', ho⟩ := opening?_encode text.toList rest
  rw [toList_longString]
  simp only [comment?, ho, LongBracket.read?_encode, Option.map_some]

/-- A text that opens no long bracket is the comment up to the first line break. -/
theorem comment?_oneLine {cs rest : List Char} (h : LineBreak.Free cs)
    (ho : LongBracket.opening? (cs ++ rest) = none)
    (hr : ∀ c ∈ rest.head?, LineBreak.isBreak c = true) :
    comment? (cs ++ rest) = some (.shortComment (String.ofList cs), rest) := by
  have hin : ∀ c ∈ cs, (!LineBreak.isBreak c) = true := fun c hc => by
    rw [h c hc]
    rfl
  have hout : ∀ c ∈ rest.head?, (!LineBreak.isBreak c) = false := fun c hc => by
    rw [hr c hc]
    rfl
  obtain ⟨ht, hd⟩ := span_append hin hout
  simp only [comment?, ho, ht, hd]

theorem opening?_commentBody {text : String} {rest : List Char}
    (hr : ∀ c ∈ rest.head?, LineBreak.isBreak c = true) :
    LongBracket.opening? ((commentBody text).toList ++ rest) = none := by
  unfold commentBody
  split
  · cases rest with
    | nil => rfl
    | cons c rest =>
      have hc : c ≠ '[' := by
        rintro rfl
        cases hr '[' rfl
      show LongBracket.opening? (c :: rest) = none
      unfold LongBracket.opening?
      split
      · rename_i he
        exact absurd (List.cons.inj he).1 hc
      · rfl
  · rw [String.toList_append]
    rfl

end Lexeme

/-- **Comments end where they are meant to.** The fragment that a comment of any text puts is
read as one comment. If the text has line breaks, it is a long comment, which ends with the
fragment whatever comes after it, and holds the text, its line breaks as line feeds. If it
has none, it is a comment of one line, which ends with the fragment if the source ends there
or a line break comes next, and holds a blank and the text, or nothing if there is no text. -/
theorem next?_comment (text : String) :
    (∀ b : Builder, Command.apply b (.put (.comment text)) = .ok (b.append (comment text))) ∧
    (¬ OneLine text → ∀ rest : String, Lexeme.next? (comment text ++ rest).toList =
      some (.longComment (String.ofList (LineBreak.normalize text.toList)), rest.toList)) ∧
    (OneLine text → ∀ rest : String, (∀ c ∈ rest.toList.head?, LineBreak.isBreak c = true) →
      Lexeme.next? (comment text ++ rest).toList =
        some (.shortComment (commentBody text), rest.toList)) := by
  have hd : "--".toList = ['-', '-'] := rfl
  refine ⟨fun b => rfl, fun h rest => ?_, fun h rest hr => ?_⟩
  · rw [comment_of_not_oneLine h, String.toList_append, String.toList_append, hd]
    exact Lexeme.comment?_longString text rest.toList
  · rw [comment_of_oneLine h, String.toList_append, String.toList_append, hd]
    have hc := Lexeme.comment?_oneLine (oneLine_commentBody h) (Lexeme.opening?_commentBody hr) hr
    rw [String.ofList_toList] at hc
    exact hc

/-- A text that closes brackets of two levels, and one that opens a bracket. -/
theorem next?_comment_brackets :
    ¬ OneLine "]]\r\n]=]--[[" ∧
    Lexeme.next? (comment "]]\r\n]=]--[[" ++ "]]x()").toList =
      some (.longComment "]]\n]=]--[[", "]]x()".toList) ∧
    OneLine "[=[x" ∧ (∀ c ∈ "\rx()".toList.head?, LineBreak.isBreak c = true) ∧
    Lexeme.next? (comment "[=[x" ++ "\rx()").toList =
      some (.shortComment " [=[x", "\rx()".toList) := by
  have hn : ¬ OneLine "]]\r\n]=]--[[" := by decide
  have h : OneLine "[=[x" := by decide
  have hr : ∀ c ∈ "\rx()".toList.head?, LineBreak.isBreak c = true := fun c hc => by
    cases hc
    rfl
  exact ⟨hn, (next?_comment _).2.1 hn "]]x()", h, hr, (next?_comment _).2.2 h "\rx()" hr⟩

end LuaSource
