/-
Names: which texts may stand for a variable, a field or a label. A name is
made of ASCII letters, digits and underscores, does not start with a digit
and is not a reserved word.
-/

namespace LuaSource
namespace Name

def reserved : List String :=
  ["and", "break", "do", "else", "elseif", "end", "false", "for", "function", "goto", "if",
    "in", "local", "nil", "not", "or", "repeat", "return", "then", "true", "until", "while"]

/-- Only ASCII letters count. -/
def starts (c : Char) : Bool := c.isAlpha || c == '_'

def continues (c : Char) : Bool := starts c || c.isDigit

/-- The spelling of a name, the reserved words included. -/
def spelled : List Char → Bool
  | [] => false
  | c :: rest => starts c && rest.all continues

end Name

def isName (text : String) : Bool :=
  Name.spelled text.toList && !Name.reserved.contains text

theorem continues_of_isName {name : String} (h : isName name = true) :
    ∀ c ∈ name.toList, Name.continues c = true := by
  rw [isName, Bool.and_eq_true] at h
  cases hn : name.toList with
  | nil => exact fun c hc => by cases hc
  | cons d rest =>
    rw [hn, Name.spelled, Bool.and_eq_true, List.all_eq_true] at h
    refine List.forall_mem_cons.2 ⟨?_, h.1.2⟩
    show (Name.starts d || d.isDigit) = true
    rw [h.1.1, Bool.true_or]

end LuaSource
