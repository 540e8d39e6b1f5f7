/-
Effects: the parts of a command, one after the other, when a builder is changed
in place. What an effect did stays done, also when a later one is refused. So
a refused command leaves nothing behind only if whatever can be refused comes
before the first change.

The journal hears of effects, not of commands: each check and each lowering
that is refused has it write, and so has a clearing.
-/
import LuaSource.Command

namespace LuaSource

inductive Effect
  | check (fault? : Option ArgumentFault)
  | lower
  | raise
  | write (text : String)
  | breakLine
  | breakBare
  | setUnit (unit : String)
  | setNewline (newline : String)
  | setSink (sink : Sink)
  | clear
  deriving DecidableEq, Repr

namespace Effect

def apply (b : Builder) : Effect → Except Fault Builder
  | .check fault? => Builder.unlessFault fault? b
  | .lower => b.dedent
  | .raise => .ok b.indent
  | .write text => .ok (b.append text)
  | .breakLine => .ok b.newLine
  | .breakBare => .ok b.newBareLine
  | .setUnit unit => .ok (b.setUnit unit)
  | .setNewline newline => .ok (b.setNewline newline)
  | .setSink sink => .ok (b.setSink sink)
  | .clear => .ok b.reset

/-- The effects in order, up to one that is refused: the builder as it stands
then, and the fault. -/
def perform (b : Builder) : List Effect → Builder × Option Fault
  | [] => (b, none)
  | e :: es =>
    match e.apply b with
    | .ok b' => perform b' es
    | .error fault => (b, some fault)

def refusable : Effect → Bool
  | .check _ | .lower => true
  | _ => false

/-- Whether what can be refused comes before the first change. A check changes
nothing, so anything may follow it. -/
def guarded : List Effect → Bool
  | [] => true
  | .check _ :: es => guarded es
  | _ :: es => es.all (!·.refusable)

/-- A check or a lowering is told of if it is refused, a clearing with how much there was. -/
def event? (b : Builder) : Effect → Option Event
  | .check fault? => fault?.map fun fault => .rejected (.badArgument fault)
  | .lower => if b.level = 0 then some (.rejected .levelIsZero) else none
  | .clear => some (.reset b.count b.level)
  | _ => none

def events (b : Builder) : List Effect → List Event
  | [] => []
  | e :: es =>
    (e.event? b).toList ++
      match e.apply b with
      | .ok b' => events b' es
      | .error _ => []

end Effect

/-! ## Commands -/

/-- Names and targets are checked apart from values, and before them. -/
def Phrase.checks : Phrase → List (Option ArgumentFault)
  | .defineLocal names values => [faultInTexts .localNames names, faultInList .localValues values]
  | .assign targets values =>
    [faultInTexts .assignmentTargets targets, faultInList .assignmentValues values]
  | p => [p.fault?]

def Opener.checks : Opener → List (Option ArgumentFault)
  | .forIn names exprs =>
    [faultInTexts .loopVariables names, faultInList .loopExpressions exprs]
  | o => [o.fault?]

def Command.effects : Command → List Effect
  | .put p => [.check p.fault?, .write p.text]
  | .openBlock o => [.check o.fault?, .write o.text, .raise]
  | .continueBlock br => [.lower, .breakLine, .write br.text, .raise]
  | .closeBlock c => [.lower, .breakLine, .write c.text]
  | .indent => [.raise]
  | .dedent => [.lower]
  | .newLine => [.breakLine]
  | .newDeeperLine => [.raise, .breakLine]
  | .newOuterLine => [.lower, .breakLine]
  | .newBareLine => [.breakBare]
  | .setUnit unit => [.setUnit unit]
  | .setNewline newline => [.setNewline newline]
  | .setSink sink => [.setSink sink]
  | .reset => [.clear]
  | .ask _ => []

/-- The same effects, with each check done for itself. -/
def Command.checkedEffects : Command → List Effect
  | .put p => p.checks.map .check ++ [.write p.text]
  | .openBlock o => o.checks.map .check ++ [.write o.text, .raise]
  | c => c.effects

end LuaSource
