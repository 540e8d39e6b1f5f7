/-
Texts in which the lexer meets no comment. Two neighbouring characters open something if they
start a comment or a long string. A text is unopened if no two do, those inside short literals
apart, which are passed over whole. Taking a lexeme from such a text leaves such a text, whatever
the lexeme is: a short literal is taken to its end, since it reads back as what it was made from,
and any other lexeme ends before the next literal. So a run never comes to two dashes.

What is put in front of an unopened text may open something with its last character. A piece is
inert if it opens nothing and its last character cannot.
-/
import LuaSource.Proofs.LexemeRuns

namespace LuaSource

theorem Symbol.quote_not_mem_chars (s : Symbol) : '"' ∉ s.chars := by
  cases s <;> decide

theorem Symbol.eq_append_of_read? {cs rest : List Char} {s : Symbol}
    (h : read? cs = some (s, rest)) : cs = s.chars ++ rest := by
  obtain ⟨t, -, ht⟩ := List.exists_of_findSome?_eq_some h
  obtain ⟨r, hr, he⟩ := Option.map_eq_some_iff.1 ht
  cases he
  exact remainder?_eq_some_iff.1 hr

namespace Lexeme

/-! ## Comments met -/

/-- Some run of the lexer comes to stand before two dashes. -/
def MeetsComment (cs : List Char) : Prop := ∃ xs rest, Reads cs xs ('-' :: '-' :: rest)

theorem isComment_word (cs : List Char) : (word cs).1.isComment = false := by
  rw [word]
  split <;> rfl

/-- A comment is only ever taken from where two dashes stand. -/
theorem Taken.eq_dashes {cs rest : List Char} {x : Lexeme} (h : Taken cs x rest)
    (hx : x.isComment = true) : ∃ cs', cs = '-' :: '-' :: cs' := by
  cases h with
  | comment _ => exact ⟨_, rfl⟩
  | @word c cs _ _ _ hw =>
    have hword := isComment_word (c :: cs)
    rw [hw, hx] at hword
    cases hword
  | quoted | numeral | long | symbol => cases hx

theorem Reads.meetsComment {cs rest : List Char} {xs : List Lexeme} (h : Reads cs xs rest)
    {x : Lexeme} (hx : x ∈ xs) (hc : x.isComment = true) : MeetsComment cs := by
  induction h with
  | here _ => cases hx
  | blank hb _ ih =>
    obtain ⟨ys, r, hr⟩ := ih hx
    exact ⟨ys, r, .blank hb hr⟩
  | lexeme hn _ ih =>
    rcases List.mem_cons.1 hx with rfl | hx
    · obtain ⟨cs', rfl⟩ := (Taken.of_next? hn).eq_dashes hc
      exact ⟨[], cs', .here _⟩
    · obtain ⟨ys, r, hr⟩ := ih hx
      exact ⟨_, r, .lexeme hn hr⟩

/-! ## Unopened texts -/

/-- Whether `c` and then `d` start a comment or a long string. -/
def opens (c d : Char) : Bool := c == '-' && d == '-' || c == '[' && (d == '[' || d == '=')

def isQuote (c : Char) : Bool := c == '"' || c == '\x27'

/-- No two neighbouring characters open anything, except inside short literals. -/
inductive Unopened : List Char → Prop
  | nil : Unopened []
  | char {c : Char} {cs : List Char} : isQuote c = false → (∀ d ∈ cs.head?, opens c d = false) →
      Unopened cs → Unopened (c :: cs)
  | literal (raw : List Char) {cs : List Char} : Unopened cs → Unopened (Quoted.encode raw ++ cs)

namespace Unopened

variable {c d : Char} {cs rest : List Char}

/-- At a character other than a double quote no literal starts. -/
theorem of_cons (h : Unopened (c :: cs)) (hc : c ≠ '"') :
    isQuote c = false ∧ (∀ d ∈ cs.head?, opens c d = false) ∧ Unopened cs := by
  generalize htext : c :: cs = text at h
  cases h with
  | nil => cases htext
  | char hq ho h =>
    cases htext
    exact ⟨hq, ho, h⟩
  | literal raw h =>
    cases htext
    exact absurd rfl hc

theorem of_append (h : Unopened (cs ++ rest)) (hcs : '"' ∉ cs) : Unopened rest := by
  induction cs with
  | nil => exact h
  | cons c cs ih =>
    rw [List.mem_cons, not_or] at hcs
    obtain ⟨-, -, hrest⟩ := h.of_cons (Ne.symm hcs.1)
    exact ih hrest hcs.2

theorem not_opens (h : Unopened (c :: d :: cs)) : opens c d = false := by
  by_cases hc : c = '"'
  · subst hc
    rfl
  · exact (h.of_cons hc).2.1 d rfl

theorem opening?_eq_none (h : Unopened cs) : LongBracket.opening? cs = none := by
  unfold LongBracket.opening?
  split
  · rename_i cs
    split
    · rename_i hbracket
      cases cs with
      | nil => cases hbracket
      | cons d cs =>
        -- `d` is no equals sign, so it is where the search for the second bracket ends.
        have hd := h.not_opens
        simp only [opens, beq_self_eq_true, Bool.true_and, Bool.or_eq_false_iff] at hd
        rw [List.dropWhile_cons_of_neg (by simp [hd])] at hbracket
        cases hbracket
        simp at hd
    · rfl
  · rfl

theorem of_quoted {s : List Char} (h : Unopened (c :: cs)) (hc : isQuote c = true)
    (hr : Quoted.read? (c :: cs) = some (s, rest)) : Unopened rest := by
  generalize htext : c :: cs = text at h hr
  cases h with
  | nil => cases htext
  | char hq _ _ =>
    cases htext
    rw [hc] at hq
    cases hq
  | literal raw h =>
    rw [Quoted.read?_encode] at hr
    cases hr
    exact h

end Unopened

theorem quote_not_mem_numeral (cs : List Char) : '"' ∉ cs.take (numeralLength cs) := by
  have hne {c : Char} (h : (Name.continues c || c == '.') = true) : '"' ≠ c := by
    intro hc
    rw [← hc] at h
    cases h
  fun_induction numeralLength cs with
  | case1 c s cs h ih =>
    rw [List.take_succ_cons, List.take_succ_cons, List.mem_cons, List.mem_cons, not_or, not_or]
    refine ⟨?_, ?_, ih⟩
    · rcases h.1 with rfl | rfl <;> decide
    · rcases h.2 with rfl | rfl <;> decide
  | case2 c s cs _ h ih =>
    rw [List.take_succ_cons, List.mem_cons, not_or]
    exact ⟨hne h, ih⟩
  | case4 c h => exact fun hc => hne h (List.mem_singleton.1 hc)
  | case3 | case5 | case6 => exact List.not_mem_nil

/-- **One lexeme.** What is left of an unopened text is unopened. -/
theorem Taken.unopened {cs rest : List Char} {x : Lexeme} (h : Taken cs x rest)
    (hcs : Unopened cs) : Unopened rest := by
  cases h with
  | comment _ => cases hcs.not_opens
  -- The one lexeme that a literal is: all others stop before a double quote.
  | quoted hq hr => exact hcs.of_quoted (by rcases hq with rfl | rfl <;> rfl) hr
  | @word c cs _ _ _ hw =>
    cases hw
    rw [← List.takeWhile_append_dropWhile (p := Name.continues) (l := c :: cs)] at hcs
    refine hcs.of_append fun hquote => ?_
    cases List.all_eq_true.1 List.all_takeWhile _ hquote
  | @numeral c cs _ _ =>
    rw [← List.take_append_drop (numeralLength (c :: cs)) (c :: cs)] at hcs
    exact hcs.of_append (quote_not_mem_numeral (c :: cs))
  | long ho _ =>
    rw [hcs.opening?_eq_none] at ho
    cases ho
  | @symbol _ _ s hs =>
    rw [Symbol.eq_append_of_read? hs] at hcs
    exact hcs.of_append s.quote_not_mem_chars

/-- **A run.** No comment comes up in an unopened text. -/
theorem Reads.unopened {cs rest : List Char} {xs : List Lexeme} (h : Reads cs xs rest)
    (hcs : Unopened cs) : Unopened rest := by
  induction h with
  | here _ => exact hcs
  | blank hb _ ih => exact ih (hcs.of_cons (by rintro rfl; cases hb)).2.2
  | lexeme hn _ ih => exact ih ((Taken.of_next? hn).unopened hcs)

theorem Unopened.not_meetsComment {cs : List Char} (h : Unopened cs) : ¬ MeetsComment cs := by
  rintro ⟨xs, rest, hr⟩
  cases (hr.unopened h).not_opens

/-! ## Inert pieces -/

/-- A character that opens nothing with any other and starts no literal. -/
def isPlain (c : Char) : Bool := !isQuote c && c != '-' && c != '['

theorem isQuote_of_isPlain {c : Char} (h : isPlain c = true) : isQuote c = false := by
  simp only [isPlain, Bool.and_eq_true, Bool.not_eq_true'] at h
  exact h.1.1

theorem opens_of_isPlain {c : Char} (h : isPlain c = true) (d : Char) : opens c d = false := by
  simp only [isPlain, Bool.and_eq_true, bne_iff_ne] at h
  simp [opens, h]

/-- A piece that opens nothing, whatever comes after it. -/
inductive Inert : List Char → Prop
  | nil : Inert []
  | plain {c : Char} {cs : List Char} : isPlain c = true → Inert cs → Inert (c :: cs)
  | before {c d : Char} {cs : List Char} : isQuote c = false → opens c d = false →
      Inert (d :: cs) → Inert (c :: d :: cs)

namespace Inert

variable {cs cs' : List Char}

theorem plain_append (hcs : ∀ c ∈ cs, isPlain c = true) (h : Inert cs') : Inert (cs ++ cs') := by
  induction cs with
  | nil => exact h
  | cons c cs ih =>
    rw [List.forall_mem_cons] at hcs
    exact .plain hcs.1 (ih hcs.2)

theorem of_plain (h : ∀ c ∈ cs, isPlain c = true) : Inert cs := by
  have := plain_append h .nil
  rwa [List.append_nil] at this

theorem unopened_append {rest : List Char} (h : Inert cs) (hr : Unopened rest) :
    Unopened (cs ++ rest) := by
  induction h with
  | nil => exact hr
  | plain hc _ ih => exact .char (isQuote_of_isPlain hc) (fun d _ => opens_of_isPlain hc d) ih
  | before hq ho _ ih =>
    refine .char hq ?_ ih
    rintro _ ⟨⟩
    exact ho

end Inert

end Lexeme
end LuaSource
