/-
Scripts and reports: steps that are run on a new builder, what each of them
adds to the source, and how the build ends. A step that fails leaves the script
running.
-/
import LuaSource.Remainder
import LuaSource.Script

namespace LuaSource

/-- How the source differs after a step: something was added at its end, or it
has to be told as a whole. -/
inductive Change
  | added (rest : String)
  | replaced (source : String)
  deriving DecidableEq, Repr

def Change.between (before after : String) : Change :=
  match remainder? before.toList after.toList with
  | some rest => .added (String.ofList rest)
  | none => .replaced after

def Outcome.change (o : Outcome) : Change := .between o.before.render o.after.render

/-! ## Scripts -/

/-- Steps, and what is set on the new builder before them. -/
structure Script where
  unit : Option String := none
  newline : Option String := none
  sink : Option Sink := none
  steps : List Step

def Script.start (s : Script) : Builder :=
  let layout : Layout := {}
  { layout := ⟨s.unit.getD layout.unit, s.newline.getD layout.newline⟩, sink := s.sink }

structure Ending where
  verdict : Except Fault String
  log : String

def Builder.ending (b : Builder) : Ending where
  verdict := b.finish
  log := if b.level = 0 then "" else (Event.leftOpen b.level).kept b.sink

structure Report where
  traces : List Trace
  final : Builder
  ending : Ending

def Script.run (s : Script) : Report :=
  let traces := Step.runAll true s.start s.steps
  let final := Trace.final s.start traces
  { traces, final, ending := final.ending }

end LuaSource
