/-
Steps, and what comes of running them on a builder. A step is a command or a
body of steps that runs one level deeper.

A run is a tree of traces. The outcome of a step holds the builder before and
after it, so every question about a run is a question about its traces.
-/
import LuaSource.Command

namespace LuaSource

/-- A command, or a body that runs one level deeper. The body stops at its
first failing step unless it is `tolerant`, and a body that was not stopped
fails in the end if it has a `failure` to state. -/
inductive Step
  | command (c : Command)
  | indented (body : List Step) (tolerant : Bool) (failure : Option String)
  deriving Repr

structure Outcome where
  before : Builder
  after : Builder
  verdict : Except Fault Reply
  log : String

def Outcome.failed (o : Outcome) : Bool := !o.verdict.isOk

/-- What a step did; for a body, also what the steps did that ran in it. -/
inductive Trace
  | command (c : Command) (outcome : Outcome)
  | indented (outcome : Outcome) (body : List Trace)

namespace Trace

def outcome : Trace → Outcome
  | .command _ o => o
  | .indented o _ => o

def final (b : Builder) : List Trace → Builder
  | [] => b
  | t :: ts => final t.outcome.after ts

def logs (ts : List Trace) : String := String.join (ts.map (·.outcome.log))

end Trace

/-! ## Runs -/

/-- A refused command leaves the builder as it was. -/
def Command.run (b : Builder) (c : Command) : Outcome :=
  match c.apply b with
  | .ok after =>
    { before := b, after, verdict := .ok (c.reply after),
      log := ((c.event? b).map (·.kept b.sink)).getD "" }
  | .error fault =>
    { before := b, after := b, verdict := .error fault, log := (Event.rejected fault).kept b.sink }

/-- The verdict on a body whose steps did `ts`: the fault that stopped it, or
else the one that it states. -/
def Step.bodyVerdict (tolerant : Bool) (failure : Option String) (ts : List Trace) :
    Except Fault Reply :=
  match if tolerant then none else ts.find? (·.outcome.failed), failure with
  | some t, _ => t.outcome.verdict
  | none, some reason => .error (.badArgument (.stated reason))
  | none, none => .ok .done

mutual

/-- A body starts one level deeper and leaves the level as it found it, even
when it fails. Its fault is passed on and not journalled again. -/
def Step.run (b : Builder) : Step → Trace
  | .command c => .command c (c.run b)
  | .indented body tolerant failure =>
    let ts := Step.runAll tolerant b.indent body
    .indented
      { before := b
        after := (Trace.final b.indent ts).atLevel b.level
        verdict := Step.bodyVerdict tolerant failure ts
        log := Trace.logs ts }
      ts

/-- Runs steps in order. Unless `tolerant`, a step that fails is the last. -/
def Step.runAll (tolerant : Bool) (b : Builder) : List Step → List Trace
  | [] => []
  | s :: rest =>
    let t := s.run b
    if t.outcome.failed && !tolerant then [t]
    else t :: Step.runAll tolerant t.outcome.after rest

end

end LuaSource
