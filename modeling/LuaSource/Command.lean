/-
Commands: everything that can be asked of a builder in one step, as data. A
command gives the builder after it, or the fault for which it is refused. A
query changes nothing and is never refused.
-/
import LuaSource.Builder

namespace LuaSource

inductive Query
  | source
  | display
  | isEmpty
  | count
  | level
  | unit
  | newline
  | currentIndent
  deriving DecidableEq, Repr

/-- What an accepted command answers. -/
inductive Reply
  | done
  | text (s : String)
  | flag (b : Bool)
  | number (n : Nat)
  deriving DecidableEq, Repr

def Query.reply (b : Builder) : Query → Reply
  | .source => .text b.render
  | .display => .text (toString b)
  | .isEmpty => .flag b.isEmpty
  | .count => .number b.count
  | .level => .number b.level
  | .unit => .text b.layout.unit
  | .newline => .text b.layout.newline
  | .currentIndent => .text b.currentIndent

inductive Command
  | put (p : Phrase)
  | openBlock (o : Opener)
  | continueBlock (br : Branch)
  | closeBlock (c : Closer)
  | indent
  | dedent
  | newLine
  | newDeeperLine
  | newOuterLine
  | newBareLine
  | setUnit (unit : String)
  | setNewline (newline : String)
  | setSink (sink : Sink)
  | reset
  | ask (q : Query)
  deriving DecidableEq, Repr

namespace Command

def apply (b : Builder) : Command → Except Fault Builder
  | .put p => b.put p
  | .openBlock o => b.openBlock o
  | .continueBlock br => b.continueBlock br
  | .closeBlock c => b.closeBlock c
  | .indent => .ok b.indent
  | .dedent => b.dedent
  | .newLine => .ok b.newLine
  | .newDeeperLine => .ok b.newDeeperLine
  | .newOuterLine => b.newOuterLine
  | .newBareLine => .ok b.newBareLine
  | .setUnit unit => .ok (b.setUnit unit)
  | .setNewline newline => .ok (b.setNewline newline)
  | .setSink sink => .ok (b.setSink sink)
  | .reset => .ok b.reset
  | .ask _ => .ok b

def reply (b : Builder) : Command → Reply
  | .ask q => q.reply b
  | _ => .done

/-- What the journal hears of a command that `b` carries out. -/
def event? (b : Builder) : Command → Option Event
  | .reset => some (.reset b.count b.level)
  | _ => none

end Command
end LuaSource
