/-
Lexemes: source cut into names, reserved words, numerals, strings, symbols and
comments, each the longest that the text allows. Blanks between them are
skipped, comments are kept. A text that cannot be cut has no lexemes at all.
-/
import LuaSource.LongBracket.Reader
import LuaSource.Name
import LuaSource.Number.Reader
import LuaSource.Quoted.Reader

namespace LuaSource

inductive Symbol
  | ellipsis | concat | dot
  | eq | assign
  | ne | tilde
  | shiftLeft | le | lt
  | shiftRight | ge | gt
  | doubleSlash | slash
  | doubleColon | colon
  | plus | minus | star | percent | caret | hash | ampersand | bar
  | openParen | closeParen | openBracket | closeBracket | openBrace | closeBrace
  | semicolon | comma
  deriving DecidableEq, Repr

namespace Symbol

def chars : Symbol → List Char
  | .ellipsis => ['.', '.', '.']
  | .concat => ['.', '.']
  | .dot => ['.']
  | .eq => ['=', '=']
  | .assign => ['=']
  | .ne => ['~', '=']
  | .tilde => ['~']
  | .shiftLeft => ['<', '<']
  | .le => ['<', '=']
  | .lt => ['<']
  | .shiftRight => ['>', '>']
  | .ge => ['>', '=']
  | .gt => ['>']
  | .doubleSlash => ['/', '/']
  | .slash => ['/']
  | .doubleColon => [':', ':']
  | .colon => [':']
  | .plus => ['+']
  | .minus => ['-']
  | .star => ['*']
  | .percent => ['%']
  | .caret => ['^']
  | .hash => ['#']
  | .ampersand => ['&']
  | .bar => ['|']
  | .openParen => ['(']
  | .closeParen => [')']
  | .openBracket => ['[']
  | .closeBracket => [']']
  | .openBrace => ['\x7b']
  | .closeBrace => ['\x7d']
  | .semicolon => [';']
  | .comma => [',']

/-- All symbols, each before those that it starts with. -/
def all : List Symbol :=
  [.ellipsis, .concat, .dot, .eq, .assign, .ne, .tilde, .shiftLeft, .le, .lt, .shiftRight, .ge,
    .gt, .doubleSlash, .slash, .doubleColon, .colon, .plus, .minus, .star, .percent, .caret,
    .hash, .ampersand, .bar, .openParen, .closeParen, .openBracket, .closeBracket, .openBrace,
    .closeBrace, .semicolon, .comma]

/-- The longest symbol that a text starts with, and the text after it. -/
def read? (cs : List Char) : Option (Symbol × List Char) :=
  all.findSome? fun s => (remainder? s.chars cs).map (s, ·)

theorem chars_ne_nil (s : Symbol) : s.chars ≠ [] := by cases s <;> simp [chars]

theorem length_lt_of_read? {cs rest : List Char} {s : Symbol} (h : read? cs = some (s, rest)) :
    rest.length < cs.length := by
  obtain ⟨t, _, ht⟩ := List.exists_of_findSome?_eq_some h
  obtain ⟨r, hr, he⟩ := Option.map_eq_some_iff.1 ht
  have hl := congrArg List.length (remainder?_eq_some_iff.1 hr)
  have hp := List.length_pos_iff.2 (chars_ne_nil t)
  simp only [Prod.mk.injEq] at he
  rw [List.length_append] at hl
  rw [← he.2]
  omega

end Symbol

inductive Lexeme
  | name (name : String)
  | keyword (word : String)
  | numeral (n : Numeral)
  | string (contents : String)
  | symbol (s : Symbol)
  | shortComment (text : String)
  | longComment (text : String)
  deriving DecidableEq, Repr

namespace Lexeme

def isBlank (c : Char) : Bool :=
  c == ' ' || c == '\t' || c == '\x0b' || c == '\x0c' || LineBreak.isBreak c

/-- The longest word at the start of a text. -/
def word (cs : List Char) : Lexeme × List Char :=
  let w := String.ofList (cs.takeWhile Name.continues)
  (if Name.reserved.contains w then .keyword w else .name w, cs.dropWhile Name.continues)

/-- How many characters a numeral at the start of a text takes: letters,
digits, points, and a sign after the mark of an exponent. -/
def numeralLength : List Char → Nat
  | c :: s :: cs =>
    if (c = 'e' ∨ c = 'E') ∧ (s = '+' ∨ s = '-') then numeralLength cs + 2
    else if Name.continues c || c == '.' then numeralLength (s :: cs) + 1
    else 0
  | [c] => if Name.continues c || c == '.' then 1 else 0
  | [] => 0

def numeral? (cs : List Char) : Option (Lexeme × List Char) :=
  (Numeral.read? (cs.take (numeralLength cs))).map fun n => (.numeral n, cs.drop (numeralLength cs))

/-- Whether a text starts with a digit, or with a point and a digit. -/
def startsNumeral : List Char → Bool
  | '.' :: c :: _ => c.isDigit
  | c :: _ => c.isDigit
  | [] => false

/-- Reads a comment from after its dashes. One that goes on with a long bracket
ends with the bracket, any other with the line. -/
def comment? (cs : List Char) : Option (Lexeme × List Char) :=
  match LongBracket.opening? cs with
  | some _ => (LongBracket.read? cs).map fun (s, rest) => (.longComment (String.ofList s), rest)
  | none =>
    some (.shortComment (String.ofList (cs.takeWhile fun c => !LineBreak.isBreak c)),
      cs.dropWhile fun c => !LineBreak.isBreak c)

/-- A symbol, or a long string if a bracket opens one. A bracket before an
equals sign has to open one. -/
def symbol? (cs : List Char) : Option (Lexeme × List Char) :=
  match LongBracket.opening? cs, cs with
  | some _, _ => (LongBracket.read? cs).map fun (s, rest) => (.string (String.ofList s), rest)
  | none, '[' :: '=' :: _ => none
  | none, _ => (Symbol.read? cs).map fun (s, rest) => (.symbol s, rest)

def next? (cs : List Char) : Option (Lexeme × List Char) :=
  match cs with
  | [] => none
  | '-' :: '-' :: rest => comment? rest
  | c :: _ =>
    if c = '"' ∨ c = '\x27' then
      (Quoted.read? cs).map fun (s, rest) => (.string (String.ofList s), rest)
    else if Name.starts c then some (word cs)
    else if startsNumeral cs then numeral? cs
    else symbol? cs

/-! ## Whole texts -/

theorem length_dropWhile_le (p : Char → Bool) (cs : List Char) :
    (cs.dropWhile p).length ≤ cs.length := (List.dropWhile_sublist p).length_le

theorem numeralLength_pos {cs : List Char} (h : startsNumeral cs = true) : 0 < numeralLength cs := by
  have digit : ∀ c : Char, c.isDigit = true → Name.continues c = true := fun c hc => by
    simp [Name.continues, hc]
  match cs with
  | [] => simp [startsNumeral] at h
  | [c] =>
    have hc : c.isDigit = true := by
      unfold startsNumeral at h
      split at h <;> simp_all
    simp [numeralLength, digit c hc]
  | c :: s :: cs =>
    have hc : (Name.continues c || c == '.') = true := by
      unfold startsNumeral at h
      split at h
      · rename_i he
        simp only [List.cons.injEq] at he
        simp [he.1]
      · rename_i he
        simp only [List.cons.injEq] at he
        rw [he.1, digit _ h, Bool.true_or]
      · rename_i he
        simp at he
    rw [numeralLength, if_pos hc]
    split <;> omega

theorem length_le_of_comment? {cs rest : List Char} {x : Lexeme}
    (h : comment? cs = some (x, rest)) : rest.length ≤ cs.length := by
  unfold comment? at h
  split at h
  · obtain ⟨⟨s, r⟩, hr, he⟩ := Option.map_eq_some_iff.1 h
    simp only [Prod.mk.injEq] at he
    rw [← he.2]
    exact Nat.le_of_lt (LongBracket.length_lt_of_read? hr)
  · simp only [Option.some.injEq, Prod.mk.injEq] at h
    rw [← h.2]
    exact length_dropWhile_le _ _

theorem length_lt_of_symbol? {cs rest : List Char} {x : Lexeme}
    (h : symbol? cs = some (x, rest)) : rest.length < cs.length := by
  unfold symbol? at h
  split at h
  · obtain ⟨⟨s, r⟩, hr, he⟩ := Option.map_eq_some_iff.1 h
    simp only [Prod.mk.injEq] at he
    rw [← he.2]
    exact LongBracket.length_lt_of_read? hr
  · simp at h
  · obtain ⟨⟨s, r⟩, hr, he⟩ := Option.map_eq_some_iff.1 h
    simp only [Prod.mk.injEq] at he
    rw [← he.2]
    exact Symbol.length_lt_of_read? hr

theorem length_lt_of_next? {cs rest : List Char} {x : Lexeme} (h : next? cs = some (x, rest)) :
    rest.length < cs.length := by
  unfold next? at h
  split at h
  · simp at h
  · have := length_le_of_comment? h
    simp only [List.length_cons]
    omega
  · rename_i c cs _
    split at h
    · obtain ⟨⟨s, r⟩, hr, he⟩ := Option.map_eq_some_iff.1 h
      simp only [Prod.mk.injEq] at he
      rw [← he.2]
      exact Quoted.length_lt_of_read? hr
    · split at h
      · rename_i hs
        simp only [word, Option.some.injEq, Prod.mk.injEq] at h
        have hc : Name.continues c = true := by rw [Name.continues, hs, Bool.true_or]
        have hd := length_dropWhile_le Name.continues cs
        rw [← h.2, List.dropWhile_cons, if_pos hc, List.length_cons]
        omega
      · split at h
        · rename_i hn
          obtain ⟨n, _, he⟩ := Option.map_eq_some_iff.1 h
          have hp := numeralLength_pos hn
          simp only [Prod.mk.injEq] at he
          rw [← he.2, List.length_drop, List.length_cons]
          omega
        · exact length_lt_of_symbol? h

def all? (cs : List Char) : Option (List Lexeme) :=
  match _hd : cs.dropWhile isBlank with
  | [] => some []
  | c :: start =>
    match _hn : next? (c :: start) with
    | none => none
    | some (x, rest) => (all? rest).map (x :: ·)
termination_by cs.length
decreasing_by
  have hn := length_lt_of_next? _hn
  have hd := length_dropWhile_le isBlank cs
  rw [_hd] at hd
  omega

end Lexeme
end LuaSource
