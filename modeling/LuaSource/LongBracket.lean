/-
Long strings: text between `[[` and `]]`, or the same with equally many equals
signs inside each pair. Nothing is escaped, so the number of equals signs, the
level, has to be one at which the text does not close the bracket itself.

A closing bracket of level `n` is `]`, `n` equals signs and `]`. The text
takes level `n` if it holds such a bracket, or ends in one that lacks only
the last `]`: the bracket put after the text would complete it.
-/

namespace LuaSource
namespace LongBracket

/-- The number of equals signs that `rest` starts with, if a `]` or the end of
the text comes after them. -/
def run? (rest : List Char) : Option Nat :=
  match rest.dropWhile (· == '=') with
  | [] | ']' :: _ => some (rest.takeWhile (· == '=')).length
  | _ => none

/-- The levels that a text takes, in the order in which they occur. -/
def taken : List Char → List Nat
  | [] => []
  | c :: rest => if c = ']' then (run? rest).toList ++ taken rest else taken rest

theorem countP_succ_le (n : Nat) : ∀ ns : List Nat, ns.countP (n + 1 ≤ ·) ≤ ns.countP (n ≤ ·)
  | [] => Nat.le_refl _
  | a :: ns => by
    have ih := countP_succ_le n ns
    simp only [List.countP_cons, decide_eq_true_eq]
    split <;> split <;> omega

theorem countP_succ_lt {n : Nat} : ∀ {ns : List Nat}, n ∈ ns →
    ns.countP (n + 1 ≤ ·) < ns.countP (n ≤ ·)
  | a :: ns, h => by
    simp only [List.countP_cons, decide_eq_true_eq]
    rcases List.mem_cons.1 h with rfl | h
    · have hle := countP_succ_le n ns
      split <;> split <;> omega
    · have ih := countP_succ_lt h
      split <;> split <;> omega

/-- The least number from `n` on that is not in `ns`. Each number passed over
is in `ns`, so fewer are left ahead. -/
def firstFree (ns : List Nat) (n : Nat) : Nat :=
  if n ∈ ns then firstFree ns (n + 1) else n
termination_by ns.countP (n ≤ ·)
decreasing_by exact countP_succ_lt ‹_›

def level (raw : List Char) : Nat := firstFree (taken raw) 0

def opening (n : Nat) : List Char := '[' :: List.replicate n '=' ++ ['[']

def closing (n : Nat) : List Char := ']' :: List.replicate n '=' ++ [']']

/-- A reader drops a line break right after the opening bracket, so a text that
starts with one gets another. -/
def leadingBreak : List Char → List Char
  -- A line feed alone would pair up with the carriage return and be read as one break with it.
  | '\r' :: _ => ['\r', '\n']
  | '\n' :: _ => ['\n']
  | _ => []

def wrap (n : Nat) (raw : List Char) : List Char :=
  opening n ++ leadingBreak raw ++ raw ++ closing n

def encode (raw : List Char) : List Char := wrap (level raw) raw

end LongBracket

def longString (raw : String) : String := String.ofList (LongBracket.encode raw.toList)

@[simp] theorem toList_longString (raw : String) :
    (longString raw).toList = LongBracket.encode raw.toList :=
  String.toList_ofList

end LuaSource
