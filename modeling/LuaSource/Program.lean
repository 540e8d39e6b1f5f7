/-
Programs as trees: lines of text and blocks of statements. A tree says nothing
of levels or of layout. It has a text at each depth, and commands that make a
builder write that text.
-/
import LuaSource.Command

namespace LuaSource

mutual

/-- A line of text, or a block: an opener, a body, and what comes after it. -/
inductive Stmt
  | line (text : String)
  | block (opener : Opener) (body : List Stmt) (tail : Tail)

/-- What follows a body: the closer, or a branch with a body of its own. -/
inductive Tail
  | close (closer : Closer)
  | branch (branch : Branch) (body : List Stmt) (tail : Tail)

end

/-! ## Commands -/

mutual

def Stmt.commands : Stmt → List Command
  | .line text => [.newLine, .put (.verbatim text)]
  | .block opener body tail => .newLine :: .openBlock opener :: (Stmt.allCommands body ++ tail.commands)

def Tail.commands : Tail → List Command
  | .close closer => [.closeBlock closer]
  | .branch branch body tail => .continueBlock branch :: (Stmt.allCommands body ++ tail.commands)

def Stmt.allCommands : List Stmt → List Command
  | [] => []
  | s :: ss => s.commands ++ Stmt.allCommands ss

end

/-! ## Text -/

def Layout.lineStart (l : Layout) (depth : Nat) : String := l.newline ++ l.indentation depth

mutual

def Stmt.text (l : Layout) (depth : Nat) : Stmt → String
  | .line text => l.lineStart depth ++ text
  | .block opener body tail =>
    l.lineStart depth ++ opener.text ++ Stmt.allText l (depth + 1) body ++ tail.text l depth

def Tail.text (l : Layout) (depth : Nat) : Tail → String
  | .close closer => l.lineStart depth ++ closer.text
  | .branch branch body tail =>
    l.lineStart depth ++ branch.text ++ Stmt.allText l (depth + 1) body ++ tail.text l depth

def Stmt.allText (l : Layout) (depth : Nat) : List Stmt → String
  | [] => ""
  | s :: ss => s.text l depth ++ Stmt.allText l depth ss

end

/-! ## Accepted trees -/

mutual

/-- No opener in the statement has a fault in its arguments. -/
def Stmt.accepted : Stmt → Bool
  | .line _ => true
  | .block opener body tail => opener.fault?.isNone && Stmt.allAccepted body && tail.accepted

def Tail.accepted : Tail → Bool
  | .close _ => true
  | .branch _ body tail => Stmt.allAccepted body && tail.accepted

def Stmt.allAccepted : List Stmt → Bool
  | [] => true
  | s :: ss => s.accepted && Stmt.allAccepted ss

end

end LuaSource
