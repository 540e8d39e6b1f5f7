/-
Reading short string literals: from an opening quote to the first quote of the
same kind that is not escaped. A line break inside the literal, an escape that
is not known and a missing quote are errors.
-/
import LuaSource.LineBreak
import LuaSource.Quoted

namespace LuaSource
namespace Quoted

def ofLetter? : Char → Option Char
  | 'a' => some '\x07'
  | 'b' => some '\x08'
  | 'f' => some '\x0c'
  | 'n' => some '\n'
  | 'r' => some '\r'
  | 't' => some '\t'
  | 'v' => some '\x0b'
  | '\\' => some '\\'
  | '"' => some '"'
  | '\x27' => some '\x27'
  | _ => none

/-- The digits that a text starts with, at most `n` of them, and what follows. -/
def leadingDigits : Nat → List Char → List Char × List Char
  | n + 1, c :: rest =>
    if c.isDigit then ((c :: (leadingDigits n rest).1), (leadingDigits n rest).2) else ([], c :: rest)
  | _, rest => ([], rest)

/-- Reads an escape from after its backslash. A numeric escape takes as many
digits as there are, up to three, and names a byte; the bytes above ASCII are
no characters by themselves. -/
def escaped? : List Char → Option (Char × List Char)
  | [] => none
  | c :: rest =>
    if c.isDigit then
      let code := Nat.ofDigitChars 10 (leadingDigits 3 (c :: rest)).1 0
      if code < 128 then some (Char.ofNat code, (leadingDigits 3 (c :: rest)).2) else none
    else (ofLetter? c).map (·, rest)

theorem length_leadingDigits_le : ∀ (n : Nat) (cs : List Char),
    (leadingDigits n cs).2.length ≤ cs.length
  | 0, _ => Nat.le_refl _
  | _ + 1, [] => Nat.le_refl _
  | n + 1, c :: rest => by
    have ih := length_leadingDigits_le n rest
    simp only [leadingDigits]
    split <;> simp only [List.length_cons] <;> omega

theorem length_lt_of_escaped? {cs rest : List Char} {x : Char} (h : escaped? cs = some (x, rest)) :
    rest.length < cs.length := by
  cases cs with
  | nil => simp [escaped?] at h
  | cons c cs =>
    have hd := length_leadingDigits_le 2 cs
    simp only [escaped?, leadingDigits] at h
    split at h
    · split at h
      · simp only [Option.some.injEq, Prod.mk.injEq] at h
        rw [← h.2, List.length_cons]
        omega
      · simp at h
    · obtain ⟨y, _, hy⟩ := Option.map_eq_some_iff.1 h
      simp only [Prod.mk.injEq] at hy
      rw [← hy.2, List.length_cons]
      omega

/-- Reads on to the closing quote `q`: the characters denoted, and the text
after the quote. -/
def content? (q : Char) : List Char → Option (List Char × List Char)
  | [] => none
  | c :: cs =>
    if c = q then some ([], cs)
    else if LineBreak.isBreak c then none
    else if c = '\\' then
      match _h : escaped? cs with
      | none => none
      | some (x, rest) => (content? q rest).map fun (s, rest) => (x :: s, rest)
    else (content? q cs).map fun (s, rest) => (c :: s, rest)
termination_by cs => cs.length
decreasing_by
  · exact Nat.lt_succ_of_lt (length_lt_of_escaped? ‹_›)
  · exact Nat.lt_succ_self _

theorem length_lt_of_content? {q : Char} {cs s rest : List Char}
    (h : content? q cs = some (s, rest)) : rest.length < cs.length := by
  fun_induction content? q cs generalizing s rest with
  | case1 | case3 | case4 => simp at h
  | case2 =>
    simp only [Option.some.injEq, Prod.mk.injEq] at h
    rw [← h.2, List.length_cons]
    omega
  | case5 cs x rest' hx _ _ ih =>
    obtain ⟨⟨s', r⟩, hr, he⟩ := Option.map_eq_some_iff.1 h
    have hlt := length_lt_of_escaped? hx
    have := ih hr
    simp only [Prod.mk.injEq] at he
    rw [← he.2, List.length_cons]
    omega
  | case6 c cs _ _ _ ih =>
    obtain ⟨⟨s', r⟩, hr, he⟩ := Option.map_eq_some_iff.1 h
    have := ih hr
    simp only [Prod.mk.injEq] at he
    rw [← he.2, List.length_cons]
    omega

def read? : List Char → Option (List Char × List Char)
  | '"' :: rest => content? '"' rest
  | '\x27' :: rest => content? '\x27' rest
  | _ => none

theorem length_lt_of_read? {cs s rest : List Char} (h : read? cs = some (s, rest)) :
    rest.length < cs.length := by
  unfold read? at h
  split at h
  · exact Nat.lt_succ_of_lt (length_lt_of_content? h)
  · exact Nat.lt_succ_of_lt (length_lt_of_content? h)
  · simp at h

end Quoted
end LuaSource
