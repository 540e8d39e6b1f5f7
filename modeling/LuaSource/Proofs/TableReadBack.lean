/-
A table constructor that a builder lays out reads back as the entries that it
was made from, in their order, whatever is in the keys and the values.

The commands are followed one by one, each with the text that it writes and the
lexemes of that text (`Spells`). Lines and their indentation spell nothing, so
the layout is gone at once and what is left is a list of lexemes, which the
reader takes entry by entry.
-/
import LuaSource.TableConstructor
import LuaSource.Proofs.LexemeFacts
import LuaSource.Proofs.ProgramText

namespace LuaSource

/-- In layout `l`, commands that take a builder from level `m` to level `n` write a
text that lexes to `xs`. -/
def Spells (l : Layout) (m : Nat) (cs : List Command) (xs : List Lexeme) (n : Nat) : Prop :=
  ∃ text : String, Writes l m cs text n ∧ Lexeme.Lexes text.toList xs

/-- Breaks and indentation in layout `l` are blank. -/
structure Layout.Blank (l : Layout) : Prop where
  unit : ∀ c ∈ l.unit.toList, Lexeme.isBlank c = true
  newline : ∀ c ∈ l.newline.toList, Lexeme.isBlank c = true

theorem Layout.Blank.lineStart {l : Layout} (h : l.Blank) (n : Nat) :
    ∀ c ∈ (l.lineStart n).toList, Lexeme.isBlank c = true := by
  rw [Layout.lineStart, Layout.indentation, String.toList_append, String.toList_join,
    List.forall_mem_append]
  refine ⟨h.newline, fun c hc => ?_⟩
  obtain ⟨u, hu, hc⟩ := List.mem_flatMap.1 hc
  rw [List.eq_of_mem_replicate hu] at hc
  exact h.unit c hc

namespace Spells

variable {l : Layout} {k m n : Nat} {cs cs' : List Command} {xs xs' : List Lexeme}

theorem nil : Spells l n [] [] n := ⟨"", .nil, .blank (List.all_eq_true.1 rfl)⟩

theorem append (h : Spells l k cs xs m) (h' : Spells l m cs' xs' n) :
    Spells l k (cs ++ cs') (xs ++ xs') n := by
  obtain ⟨s, hs, hx⟩ := h
  obtain ⟨s', hs', hx'⟩ := h'
  refine ⟨s ++ s', hs.append hs', ?_⟩
  rw [String.toList_append]
  exact hx.append hx'

theorem put {p : Phrase} (h : p.fault? = none) (hx : Lexeme.Lexes p.text.toList xs) :
    Spells l n [.put p] xs n := ⟨p.text, .put h, hx⟩

theorem newLine (h : l.Blank) : Spells l n [.newLine] [] n :=
  ⟨_, .newLine, .blank (h.lineStart n)⟩

theorem newDeeperLine (h : l.Blank) : Spells l n [.newDeeperLine] [] (n + 1) :=
  ⟨_, .newDeeperLine, .blank (h.lineStart (n + 1))⟩

theorem newOuterLine (h : l.Blank) : Spells l (n + 1) [.newOuterLine] [] n :=
  ⟨_, .newOuterLine, .blank (h.lineStart n)⟩

end Spells

namespace TableConstructor

/-! ## Entries -/

def keyLexemes (key : String) : List Lexeme :=
  if isName key then [.name key, .symbol .assign]
  else [.symbol .openBracket, .string key, .symbol .closeBracket, .symbol .assign]

def Entry.lexemes (e : Entry) : List Lexeme := keyLexemes e.key ++ [.string e.value]

theorem lexes_tableKey (key : String) : Lexeme.Lexes (tableKey key).toList (keyLexemes key) := by
  unfold keyLexemes
  split
  · rename_i h
    exact .tableKey_of_isName h
  · rename_i h
    exact .tableKey_of_not_isName (Bool.eq_false_iff.2 h)

/-- A long string gives back its carriage returns as line feeds, so it is only for
values without any. -/
def Entry.Readable (e : Entry) : Prop := e.long = true → '\r' ∉ e.value.toList

instance : DecidablePred Entry.Readable := fun e =>
  inferInstanceAs (Decidable (e.long = true → '\r' ∉ e.value.toList))

theorem Entry.spells {e : Entry} (h : e.Readable) (l : Layout) (n : Nat) :
    Spells l n e.commands e.lexemes n := by
  have hk : Spells l n [.put (.tableKey e.key)] (keyLexemes e.key) n :=
    .put rfl (lexes_tableKey e.key)
  have hv : Spells l n [.put (if e.long then .longString e.value else .shortString e.value)]
      [.string e.value] n := by
    split
    · rename_i hl
      exact .put rfl (.longString (h hl))
    · exact .put rfl (.quote e.value)
  exact hk.append hv

/-- The lexemes of entries with commas in between. -/
def entriesLexemes (entries : List Entry) : List Lexeme :=
  List.intercalate [.symbol .comma] (entries.map Entry.lexemes)

theorem spells_entries {l : Layout} (hl : l.Blank) (n : Nat) : ∀ {entries : List Entry},
    (∀ e ∈ entries, e.Readable) →
    Spells l n (List.intercalate [.put (.verbatim ","), .newLine] (entries.map Entry.commands))
      (entriesLexemes entries) n
  | [], _ => .nil
  | [e], h => by
    simpa [entriesLexemes] using e.spells (h e List.mem_cons_self) l n
  | e :: e' :: entries, h => by
    have he := e.spells (h e List.mem_cons_self) l n
    have hes := spells_entries hl n fun e'' he'' => h e'' (List.mem_cons_of_mem e he'')
    have hc : Spells l n [.put (.verbatim ",")] [.symbol .comma] n := .put rfl .comma
    have := (he.append (hc.append (.newLine hl))).append hes
    simpa [entriesLexemes] using this

theorem spells_commands {l : Layout} (hl : l.Blank) (n : Nat) {entries : List Entry}
    (h : ∀ e ∈ entries, e.Readable) :
    Spells l n (commands entries)
      ([.symbol .openBrace] ++ entriesLexemes entries ++ [.symbol .closeBrace]) n := by
  have ho : Spells l n [.put (.token (.mark .openBrace))] [.symbol .openBrace] n :=
    .put rfl .openBrace
  have hc : Spells l n [.put (.token (.mark .closeBrace))] [.symbol .closeBrace] n :=
    .put rfl .closeBrace
  have := ((ho.append (.newDeeperLine hl)).append (spells_entries hl (n + 1) h)).append
    ((Spells.newOuterLine hl).append hc)
  simpa [commands] using this

/-! ## Reading -/

theorem entries?_lexemes (e : Entry) (xs : List Lexeme) :
    entries? (e.lexemes ++ xs) = entries?.more? e.key e.value xs := by
  unfold Entry.lexemes keyLexemes
  split
  · simp [entries?]
  · simp [entries?]

theorem entries?_entriesLexemes : ∀ entries : List Entry,
    entries? (entriesLexemes entries ++ [.symbol .closeBrace]) =
      some (entries.map fun e => (e.key, e.value))
  | [] => by simp [entriesLexemes, entries?]
  | [e] => by
    have he := entries?_lexemes e [.symbol .closeBrace]
    simpa [entriesLexemes, entries?.more?] using he
  | e :: e' :: entries => by
    have hes := entries?_entriesLexemes (e' :: entries)
    have he := entries?_lexemes e
      (.symbol .comma :: (entriesLexemes (e' :: entries) ++ [.symbol .closeBrace]))
    rw [entries?.more?, hes] at he
    simpa [entriesLexemes] using he

/-- Keys that are a reserved word, a name, and no name for their quotes and breaks;
values that look like the brackets around them. -/
def adversarialEntries : List Entry :=
  [⟨"end", "]] = [[", true⟩, ⟨"_1", "\n]=", true⟩, ⟨"\"] =\r\n", "\\\"\x7d, [", false⟩]

end TableConstructor
end LuaSource
