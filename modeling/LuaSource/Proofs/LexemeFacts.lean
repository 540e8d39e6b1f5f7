/-
Which lexemes a text has, piece by piece. A piece lexes to some lexemes if they
come out of it whatever the text goes on with; such pieces can be put one after
the other. Blanks, literals and most symbols are pieces by themselves. A name is
one only in front of something that does not continue it, so it is told with
what it stands before.
-/
import LuaSource.Lexeme
import LuaSource.TableKey
import LuaSource.Proofs.LongBracketReadBack
import LuaSource.Proofs.QuotedReadBack

namespace LuaSource
namespace Lexeme

/-! ## Whole texts -/

theorem all?_eq (cs : List Char) : all? cs =
    match cs.dropWhile isBlank with
    | [] => some []
    | c :: start => (next? (c :: start)).bind fun (x, rest) => (all? rest).map (x :: ·) := by
  rw [all?]
  split
  · rename_i hd
    rw [hd]
  · rename_i c start hd
    rw [hd]
    dsimp only
    split
    · rename_i hn
      rw [hn]
      rfl
    · rename_i x rest hn
      rw [hn]
      rfl

theorem all?_nil : all? [] = some [] := by
  rw [all?_eq]
  rfl

/-- No lexeme starts with a blank. -/
theorem isBlank_of_next? {c : Char} {cs : List Char} {r : Lexeme × List Char}
    (h : next? (c :: cs) = some r) : isBlank c = false := by
  rw [Bool.eq_false_iff]
  intro hb
  simp only [isBlank, LineBreak.isBreak, Bool.or_eq_true, beq_iff_eq] at hb
  obtain ((((rfl | rfl) | rfl) | rfl) | rfl | rfl) := hb <;> cases h

theorem all?_of_next? {cs rest : List Char} {x : Lexeme} (h : next? cs = some (x, rest)) :
    all? cs = (all? rest).map (x :: ·) := by
  cases cs with
  | nil => cases h
  | cons c cs =>
    rw [all?_eq, List.dropWhile_cons_of_neg (by rw [isBlank_of_next? h]; decide)]
    simp only [h, Option.bind_some]

/-! ## Pieces -/

/-- The lexemes `xs` come out of `cs` whatever comes after it. -/
def Lexes (cs : List Char) (xs : List Lexeme) : Prop :=
  ∀ rest, all? (cs ++ rest) = (all? rest).map (xs ++ ·)

namespace Lexes

theorem append {cs cs' : List Char} {xs xs' : List Lexeme} (h : Lexes cs xs) (h' : Lexes cs' xs') :
    Lexes (cs ++ cs') (xs ++ xs') := fun rest => by
  rw [List.append_assoc, h, h', Option.map_map]
  congr 1
  funext ys
  exact (List.append_assoc xs xs' ys).symm

theorem blank {cs : List Char} (h : ∀ c ∈ cs, isBlank c = true) : Lexes cs [] := fun rest => by
  rw [all?_eq, List.dropWhile_append_of_pos h, ← all?_eq]
  exact Option.map_id'.symm

theorem of_next? {cs : List Char} {x : Lexeme} (h : ∀ rest, next? (cs ++ rest) = some (x, rest)) :
    Lexes cs [x] := fun rest => all?_of_next? (h rest)

theorem all?_eq {cs : List Char} {xs : List Lexeme} (h : Lexes cs xs) : all? cs = some xs := by
  have := h []
  rw [List.append_nil, all?_nil] at this
  rw [this, Option.map_some, List.append_nil]

end Lexes

/-- What a kind of character takes of a text ends where the next one is not of the kind. -/
theorem span_append {kind : Char → Bool} {cs rest : List Char} (h : ∀ c ∈ cs, kind c = true)
    (hr : ∀ c ∈ rest.head?, kind c = false) :
    (cs ++ rest).takeWhile kind = cs ∧ (cs ++ rest).dropWhile kind = rest := by
  rw [List.takeWhile_append_of_pos h, List.dropWhile_append_of_pos h]
  cases rest with
  | nil => exact ⟨List.append_nil cs, rfl⟩
  | cons c rest =>
    have hc : kind c = false := hr c rfl
    simp [hc]

/-! ## Names -/

theorem next?_of_starts {c : Char} (h : Name.starts c = true) (cs : List Char) :
    next? (c :: cs) = some (word (c :: cs)) := by
  have hm : c ≠ '-' := by
    rintro rfl
    cases h
  have hq : ¬ (c = '"' ∨ c = '\x27') := by
    rintro (rfl | rfl) <;> cases h
  unfold next?
  split
  · rename_i hc
    cases hc
  · rename_i hc
    cases hc
    exact absurd rfl hm
  · rename_i hc
    cases hc
    rw [if_neg hq, if_pos h]

/-- A name is a lexeme in front of what does not continue it. -/
theorem next?_name {name : String} (h : isName name = true) {rest : List Char}
    (hr : ∀ c ∈ rest.head?, Name.continues c = false) :
    next? (name.toList ++ rest) = some (.name name, rest) := by
  have hall := continues_of_isName h
  simp only [isName, Bool.and_eq_true, Bool.not_eq_true'] at h
  obtain ⟨hs, hres⟩ := h
  cases hc : name.toList with
  | nil =>
    rw [hc] at hs
    cases hs
  | cons c cs =>
    rw [hc] at hall
    rw [hc, Name.spelled, Bool.and_eq_true] at hs
    obtain ⟨ht, hd⟩ := span_append hall hr
    rw [List.cons_append, next?_of_starts hs.1, ← List.cons_append, word, ht, hd, ← hc,
      String.ofList_toList]
    simp only [hres, Bool.false_eq_true, if_false]

/-! ## Strings -/

theorem next?_quote (raw : String) (rest : List Char) :
    next? ((quote raw).toList ++ rest) = some (.string raw, rest) := by
  have hn : next? (Quoted.encode raw.toList ++ rest) =
      (Quoted.read? (Quoted.encode raw.toList ++ rest)).map fun read =>
        (.string (String.ofList read.1), read.2) := rfl
  rw [toList_quote, hn, Quoted.read?_encode]
  simp only [Option.map_some, String.ofList_toList]

theorem opening?_encode (raw rest : List Char) : ∃ rest',
    LongBracket.opening? (LongBracket.encode raw ++ rest) = some (LongBracket.level raw, rest') :=
  ⟨_, by rw [LongBracket.encode, LongBracket.wrap, List.append_assoc, List.append_assoc,
    List.append_assoc, LongBracket.opening?_append]⟩

theorem next?_longString {raw : String} (h : '\r' ∉ raw.toList) (rest : List Char) :
    next? ((longString raw).toList ++ rest) = some (.string raw, rest) := by
  obtain ⟨rest', ho⟩ := opening?_encode raw.toList rest
  have hn : next? (LongBracket.encode raw.toList ++ rest) =
      symbol? (LongBracket.encode raw.toList ++ rest) := rfl
  rw [toList_longString, hn]
  simp only [symbol?, ho, LongBracket.read?_encode, LineBreak.normalize_eq_self h, Option.map_some,
    String.ofList_toList]

/-! ## Pieces of a table -/

namespace Lexes

theorem quote (raw : String) : Lexes (quote raw).toList [.string raw] := .of_next? (next?_quote raw)

theorem longString {raw : String} (h : '\r' ∉ raw.toList) :
    Lexes (longString raw).toList [.string raw] := .of_next? (next?_longString h)

theorem openBrace : Lexes ['\x7b'] [.symbol .openBrace] := .of_next? fun _ => rfl

theorem closeBrace : Lexes ['\x7d'] [.symbol .closeBrace] := .of_next? fun _ => rfl

theorem closeBracket : Lexes [']'] [.symbol .closeBracket] := .of_next? fun _ => rfl

theorem comma : Lexes [','] [.symbol .comma] := .of_next? fun _ => rfl

/-- With a blank on each side an equals sign is no part of a comparison. -/
theorem assign : Lexes [' ', '=', ' '] [.symbol .assign] := by
  have hb : Lexes [' '] [] := .blank (List.all_eq_true.1 rfl)
  have ha : Lexes ['=', ' '] [.symbol .assign] := fun rest => by
    have hn : next? ('=' :: ' ' :: rest) = some (.symbol .assign, ' ' :: rest) := rfl
    have hr : all? (' ' :: rest) = all? rest := (hb rest).trans Option.map_id'
    show all? ('=' :: ' ' :: rest) = _
    rw [all?_of_next? hn, hr]
    rfl
  exact hb.append ha

/-- A bracket in front of a quote opens no long string. -/
theorem bracketed (raw : String) :
    Lexes ('[' :: (LuaSource.quote raw).toList) [.symbol .openBracket, .string raw] := fun rest => by
  have hn : next? ('[' :: ((LuaSource.quote raw).toList ++ rest)) =
      some (.symbol .openBracket, (LuaSource.quote raw).toList ++ rest) := by
    rw [toList_quote]
    rfl
  rw [List.cons_append, all?_of_next? hn, quote raw rest, Option.map_map]
  rfl

theorem tableKey_of_isName {key : String} (h : isName key = true) :
    Lexes (tableKey key).toList [.name key, .symbol .assign] := fun rest => by
  have hc : ∀ c ∈ ([' ', '=', ' '] ++ rest).head?, Name.continues c = false := fun c hc => by
    cases hc
    rfl
  have hk : (tableKey key).toList = key.toList ++ [' ', '=', ' '] := by
    rw [tableKey, if_pos h, String.toList_append]
    rfl
  rw [hk, List.append_assoc, all?_of_next? (next?_name h hc), assign rest, Option.map_map]
  rfl

theorem tableKey_of_not_isName {key : String} (h : isName key = false) :
    Lexes (tableKey key).toList
      [.symbol .openBracket, .string key, .symbol .closeBracket, .symbol .assign] := by
  have hk : (tableKey key).toList =
      '[' :: (LuaSource.quote key).toList ++ [']'] ++ [' ', '=', ' '] := by
    have ho : "[".toList = ['['] := rfl
    have hc : "] = ".toList = [']', ' ', '=', ' '] := rfl
    rw [tableKey, if_neg (by rw [h]; decide), String.toList_append, String.toList_append, ho, hc]
    simp only [List.cons_append, List.nil_append, List.append_assoc]
  rw [hk]
  exact ((bracketed key).append closeBracket).append assign

end Lexes

end Lexeme
end LuaSource
