/-
Names are what the lexer takes for names. The lexer takes the longest word there is and then
asks whether it is reserved; the check of a name asks the same of the whole text. So a text is a
name just if the lexer comes out with it as one name and has nothing left over
(`next?_eq_name_iff`): what comes after a name that the lexer takes does not continue it.

Where a name is put behind a point, after `goto`, between two pairs of colons or in front of an
equals sign, it is therefore read as the name that was given, as long as the source does not go
on with it.
-/
import LuaSource.Command
import LuaSource.Proofs.BuilderFacts
import LuaSource.Proofs.LexemeRuns

namespace LuaSource

/-! ## Characters -/

theorem Name.isDigit_of_starts {c : Char} (h : starts c = true) : c.isDigit = false := by
  rw [Bool.eq_false_iff]
  intro hd
  simp only [starts, Bool.or_eq_true, beq_iff_eq] at h
  rcases h with h | rfl
  · have hletter : (decide (65 ≤ c.val ∧ c.val ≤ 90) ||
        (decide (97 ≤ c.val) && decide (c.val ≤ 122))) = true := h
    have hdigit : (decide (48 ≤ c.val) && decide (c.val ≤ 57)) = true := hd
    simp only [Bool.or_eq_true, Bool.and_eq_true, decide_eq_true_eq, UInt32.le_iff_toNat_le,
      UInt32.reduceToNat] at hletter hdigit
    omega
  · cases hd

theorem isAlphanum_of_isName {name : String} (h : isName name = true) :
    ∀ c ∈ name.toList, c.isAlphanum = true ∨ c = '_' := by
  intro c hc
  have := continues_of_isName h c hc
  simp only [Name.continues, Name.starts, Bool.or_eq_true, beq_iff_eq] at this
  simp only [Char.isAlphanum, Bool.or_eq_true]
  rcases this with (ha | hu) | hd
  · exact .inl (.inl ha)
  · exact .inr hu
  · exact .inl (.inr hd)

namespace Lexeme

variable {cs rest : List Char} {name : String}

/-! ## Words -/

theorem word_of_next?_eq_name (h : next? cs = some (.name name, rest)) :
    ∃ c cs', cs = c :: cs' ∧ Name.starts c = true ∧ word cs = (.name name, rest) := by
  cases Taken.of_next? h with
  | comment hc => cases isComment_of_comment? hc
  | word hs hw => exact ⟨_, _, rfl, hs, hw⟩

theorem isName_of_word {c : Char} (hs : Name.starts c = true)
    (h : word (c :: cs) = (.name name, rest)) :
    isName name = true ∧ c :: cs = name.toList ++ rest ∧
      ∀ d ∈ rest.head?, Name.continues d = false := by
  have hc : Name.continues c = true := by rw [Name.continues, hs, Bool.true_or]
  simp only [word, Prod.mk.injEq] at h
  obtain ⟨hword, rfl⟩ := h
  split at hword
  · cases hword
  · rename_i hres
    cases hword
    refine ⟨?_, ?_, fun d hd => ?_⟩
    · rw [isName, String.toList_ofList, List.takeWhile_cons_of_pos hc, Name.spelled, hs]
      have hall : (cs.takeWhile Name.continues).all Name.continues = true := List.all_takeWhile
      rw [hall, ← List.takeWhile_cons_of_pos hc]
      simpa using hres
    · rw [String.toList_ofList, List.takeWhile_append_dropWhile]
    · have := List.head?_dropWhile_not Name.continues (c :: cs)
      rw [Option.mem_def.1 hd] at this
      simpa using this

/-- **The lexer's names.** It takes a name just if the text starts with one, and takes as much of
it as there is. -/
theorem next?_eq_name_iff : next? cs = some (.name name, rest) ↔
    isName name = true ∧ cs = name.toList ++ rest ∧ ∀ c ∈ rest.head?, Name.continues c = false := by
  constructor
  · intro h
    obtain ⟨c, cs', rfl, hs, hw⟩ := word_of_next?_eq_name h
    exact isName_of_word hs hw
  · rintro ⟨hname, rfl, hr⟩
    exact next?_name hname hr

/-- A text that is cut into one name is the name: blanks are no part of it. -/
theorem isName_iff_all?_eq (s : String) : isName s = true ↔ all? s.toList = some [.name s] := by
  constructor
  · intro h
    have hn : next? (s.toList ++ []) = some (.name s, []) := next?_name h (by simp)
    rw [List.append_nil] at hn
    rw [all?_of_next? hn, all?_nil]
    rfl
  · intro h
    rw [all?_eq] at h
    cases hd : s.toList.dropWhile isBlank with
    | nil =>
      rw [hd] at h
      cases h
    | cons c start =>
      rw [hd] at h
      obtain ⟨⟨x, rest⟩, hn, hrest⟩ := Option.bind_eq_some_iff.1 h
      obtain ⟨ys, _, he⟩ := Option.map_eq_some_iff.1 hrest
      obtain rfl := (List.cons.inj he).1
      -- Blanks in front would not matter, since the lexeme already says which text it is of.
      exact (next?_eq_name_iff.1 hn).1

/-! ## Names in phrases -/

namespace Reads

/-- A point in front of a name is no part of a numeral or of a longer symbol. -/
theorem field (h : isName name = true) (hr : ∀ c ∈ rest.head?, Name.continues c = false) :
    Reads ('.' :: (name.toList ++ rest)) [.symbol .dot, .name name] rest := by
  have hn := next?_name h hr
  refine .lexeme ?_ (.lexeme hn (.here rest))
  obtain ⟨c, cs, hcs, hs, -⟩ := word_of_next?_eq_name hn
  have hdot : c ≠ '.' := by
    rintro rfl
    cases hs
  have hdigit : c.isDigit = false := Name.isDigit_of_starts hs
  rw [hcs]
  show (if startsNumeral ('.' :: c :: cs) = true then numeral? ('.' :: c :: cs)
    else symbol? ('.' :: c :: cs)) = _
  rw [startsNumeral, hdigit, if_neg (by decide)]
  simp [symbol?, LongBracket.opening?, Symbol.read?, Symbol.all, Symbol.chars, remainder?, hdot.symm]

theorem goto (h : isName name = true) (hr : ∀ c ∈ rest.head?, Name.continues c = false) :
    Reads ("goto ".toList ++ (name.toList ++ rest)) [.keyword "goto", .name name] rest := by
  have hg : next? ("goto ".toList ++ (name.toList ++ rest)) =
      some (.keyword "goto", ' ' :: (name.toList ++ rest)) := rfl
  exact .lexeme hg (.blank rfl (.lexeme (next?_name h hr) (.here rest)))

/-- The colons after a label are the longest symbol, whatever comes after them. -/
theorem label (h : isName name = true) (rest : List Char) :
    Reads (':' :: ':' :: (name.toList ++ ':' :: ':' :: rest))
      [.symbol .doubleColon, .name name, .symbol .doubleColon] rest := by
  have hcolons : ∀ cs, next? (':' :: ':' :: cs) = some (.symbol .doubleColon, cs) := fun _ => rfl
  have hr : ∀ c ∈ (':' :: ':' :: rest).head?, Name.continues c = false := by
    rintro c ⟨⟩
    rfl
  exact .lexeme (hcolons _) (.lexeme (next?_name h hr) (.lexeme (hcolons rest) (.here rest)))

theorem assign (rest : List Char) : Reads (' ' :: '=' :: ' ' :: rest) [.symbol .assign] rest := by
  have ha : next? ('=' :: ' ' :: rest) = some (.symbol .assign, ' ' :: rest) := rfl
  exact .blank rfl (.lexeme ha (.blank rfl (.here rest)))

theorem bareKey (h : isName name = true) (rest : List Char) :
    Reads (name.toList ++ ' ' :: '=' :: ' ' :: rest) [.name name, .symbol .assign] rest := by
  have hr : ∀ c ∈ (' ' :: '=' :: ' ' :: rest).head?, Name.continues c = false := by
    rintro c ⟨⟩
    rfl
  exact .lexeme (next?_name h hr) (assign rest)

theorem bracketedKey (key : String) (rest : List Char) :
    Reads ('[' :: ((quote key).toList ++ ']' :: ' ' :: '=' :: ' ' :: rest))
      [.symbol .openBracket, .string key, .symbol .closeBracket, .symbol .assign] rest := by
  have ho : ∀ cs, next? ('[' :: ((quote key).toList ++ cs)) =
      some (.symbol .openBracket, (quote key).toList ++ cs) := fun cs => by
    rw [toList_quote]
    rfl
  have hc : ∀ cs, next? (']' :: cs) = some (.symbol .closeBracket, cs) := fun _ => rfl
  exact .lexeme (ho _) (.lexeme (next?_quote key _) (.lexeme (hc _) (assign rest)))

end Reads

end Lexeme

/-- Phrases that put a name with nothing else that varies, and how they are meant to be read. -/
inductive Phrase.OfName (name : String) : Phrase → List Lexeme → Prop
  | field : OfName name (.field name) [.symbol .dot, .name name]
  | goto : OfName name (.goto name) [.keyword "goto", .name name]
  | label : OfName name (.label name) [.symbol .doubleColon, .name name, .symbol .doubleColon]

namespace Phrase.OfName

variable {name : String} {p : Phrase} {xs : List Lexeme}

theorem fault?_eq_none_iff (h : p.OfName name xs) : p.fault? = none ↔ isName name = true := by
  have hf : ∀ role, faultInName role name = none ↔ isName name = true := fun role => by
    rw [faultInName, ite_eq_left_iff]
    simp
  cases h with
  | field | goto | label => exact hf _

theorem reads (h : p.OfName name xs) (hname : isName name = true) {rest : String}
    (hr : ∀ c ∈ rest.toList.head?, Name.continues c = false) :
    Lexeme.Reads (p.text ++ rest).toList xs rest.toList := by
  cases h with
  | field =>
    have ht : ((Phrase.field name).text ++ rest).toList = '.' :: (name.toList ++ rest.toList) := by
      simp [text]
    rw [ht]
    exact .field hname hr
  | goto =>
    have ht : ((Phrase.goto name).text ++ rest).toList =
        "goto ".toList ++ (name.toList ++ rest.toList) := by
      simp [text]
    rw [ht]
    exact .goto hname hr
  | label =>
    have ht : ((Phrase.label name).text ++ rest).toList =
        ':' :: ':' :: (name.toList ++ ':' :: ':' :: rest.toList) := by
      simp [text]
    rw [ht]
    exact .label hname rest.toList

end Phrase.OfName

theorem Builder.exists_put_iff {b : Builder} {p : Phrase} :
    (∃ b', Command.apply b (.put p) = .ok b') ↔ p.fault? = none := by
  constructor
  · rintro ⟨b', h⟩
    exact (put_eq_ok_iff.1 h).1
  · intro h
    exact ⟨b.append p.text, put_eq_ok_iff.2 ⟨h, rfl⟩⟩

/-- **Names are the lexer's names.** A text is a name just if the lexer takes the whole of it for
one name, so it is no reserved word and holds nothing but ASCII letters, digits and underscores.
A field, a jump and a label are accepted for names only. In front of any source that does not
go on with the name, the lexer takes what they add for just the symbols around the name and the
name itself. A key of a table is written bare if it is a name, and read as one in front of any
source. Every other key is a string in brackets. -/
theorem names_are_lexemes :
    (∀ s : String,
      (isName s = true ↔ Lexeme.next? s.toList = some (.name s, [])) ∧
      (isName s = true ↔ Lexeme.all? s.toList = some [.name s]) ∧
      (isName s = true → s ∉ Name.reserved ∧ ∀ c ∈ s.toList, c.isAlphanum = true ∨ c = '_')) ∧
    (∀ (b : Builder) (name : String) (p : Phrase) (xs : List Lexeme), p.OfName name xs →
      ((∃ b', Command.apply b (.put p) = .ok b') ↔ isName name = true) ∧
      ∀ (b' : Builder) (rest : String), Command.apply b (.put p) = .ok b' →
        (∀ c ∈ rest.toList.head?, Name.continues c = false) →
          ∃ text, b'.render = b.render ++ text ∧
            Lexeme.Reads (text ++ rest).toList xs rest.toList) ∧
    ∀ (b : Builder) (key rest : String), ∃ text,
      Command.apply b (.put (.tableKey key)) = .ok (b.append text) ∧
      (isName key = true → text = key ++ " = " ∧
        Lexeme.Reads (text ++ rest).toList [.name key, .symbol .assign] rest.toList) ∧
      (isName key = false → text = "[" ++ quote key ++ "] = " ∧
        Lexeme.Reads (text ++ rest).toList
          [.symbol .openBracket, .string key, .symbol .closeBracket, .symbol .assign]
          rest.toList) := by
  refine ⟨fun s => ⟨?_, Lexeme.isName_iff_all?_eq s, fun h => ⟨?_, isAlphanum_of_isName h⟩⟩,
    fun b name p xs hp => ⟨Builder.exists_put_iff.trans hp.fault?_eq_none_iff,
      fun b' rest ha hr => ?_⟩,
    fun b key rest => ⟨tableKey key, rfl, fun h => ?_, fun h => ?_⟩⟩
  · simp [Lexeme.next?_eq_name_iff]
  · rw [isName, Bool.and_eq_true] at h
    simpa using h.2
  · obtain ⟨hf, rfl⟩ := Builder.put_eq_ok_iff.1 ha
    exact ⟨p.text, b.render_append p.text, hp.reads (hp.fault?_eq_none_iff.1 hf) hr⟩
  · have ht : tableKey key = key ++ " = " := by rw [tableKey, if_pos h]
    refine ⟨ht, ?_⟩
    have hl : (tableKey key ++ rest).toList = key.toList ++ ' ' :: '=' :: ' ' :: rest.toList := by
      simp [ht]
    rw [hl]
    exact .bareKey h rest.toList
  · have ht : tableKey key = "[" ++ quote key ++ "] = " := by rw [tableKey, if_neg (by simp [h])]
    refine ⟨ht, ?_⟩
    have hl : (tableKey key ++ rest).toList =
        '[' :: ((quote key).toList ++ ']' :: ' ' :: '=' :: ' ' :: rest.toList) := by
      simp [ht]
    rw [hl]
    exact .bracketedKey key rest.toList

/-- A name that starts with a reserved word, as a field in front of a sum and as a label in front
of more colons; the word itself as a key. -/
theorem names_are_lexemes_ending :
    let b : Builder := {}
    isName "end_" = true ∧ (∀ c ∈ "\n+1".toList.head?, Name.continues c = false) ∧
    (∃ text, (b.append ".end_").render = b.render ++ text ∧ Lexeme.Reads (text ++ "\n+1").toList
      [.symbol .dot, .name "end_"] "\n+1".toList) ∧
    (∃ text, (b.append "::end_::").render = b.render ++ text ∧ Lexeme.Reads (text ++ "::").toList
      [.symbol .doubleColon, .name "end_", .symbol .doubleColon] "::".toList) ∧
    isName "end" = false ∧ ∃ text, Command.apply b (.put (.tableKey "end")) = .ok (b.append text) ∧
      text = "[\"end\"] = " := by
  intro b
  obtain ⟨-, hphrases, hkeys⟩ := names_are_lexemes
  have hnewline : ∀ c ∈ "\n+1".toList.head?, Name.continues c = false := by
    rintro c ⟨⟩
    rfl
  have hcolon : ∀ c ∈ "::".toList.head?, Name.continues c = false := by
    rintro c ⟨⟩
    rfl
  have hend : isName "end" = false := by decide
  refine ⟨by decide, hnewline, (hphrases b "end_" _ _ .field).2 _ _ rfl hnewline,
    (hphrases b "end_" _ _ .label).2 _ _ rfl hcolon, hend, ?_⟩
  obtain ⟨text, ha, -, hbracketed⟩ := hkeys b "end" ""
  exact ⟨text, ha, (hbracketed hend).1.trans (by decide)⟩

end LuaSource
