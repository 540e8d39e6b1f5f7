/-
A reset makes a fresh start. Whatever ran before it, what runs after it does what it would do
on a new builder with the same sink, to the last answer and the last line of the journal.

The journal is all that reaches across a reset, and it does so through the sink alone. Which
sink is attached after a run is a matter of the setters that ran, those in bodies among them
and wherever a body stopped (`Trace.attachedLaw`). Everything else that a step can read was
set back: fragments, level, unit and newline (`Builder.reset_eq`).
-/
import LuaSource.Proofs.AuditTrail

namespace LuaSource

/-! ## The sink in force -/

namespace Trace

/-- The sink that is attached after the calls: the last that was set, or the one before. -/
def attached (sink? : Option Sink) (calls : List Call) : Option Sink :=
  calls.foldl (fun sink? call =>
    match call.command with
    | .setSink sink => some sink
    | _ => sink?) sink?

theorem attached_append (sink? : Option Sink) (calls calls' : List Call) :
    attached sink? (calls ++ calls') = attached (attached sink? calls) calls' := List.foldl_append

theorem attached_command (b : Builder) (c : Command) :
    (c.run b).after.sink = attached b.sink [⟨c, c.run b⟩] := by
  by_cases hc : c.setsSink = true
  · cases c with
    | setSink sink => rfl
    | put | openBlock | continueBlock | closeBlock | indent | dedent | newLine | newDeeperLine |
        newOuterLine | newBareLine | setUnit | setNewline | reset | ask => cases hc
  · rw [Bool.not_eq_true] at hc
    have hs : attached b.sink [⟨c, c.run b⟩] = b.sink := by
      cases c with
      | setSink sink => cases hc
      | put | openBlock | continueBlock | closeBlock | indent | dedent | newLine | newDeeperLine |
          newOuterLine | newBareLine | setUnit | setNewline | reset | ask => rfl
    rw [hs]
    cases h : c.apply b with
    | ok b' => rw [(Command.run_of_ok h).1, Command.sink_of_apply hc h]
    | error fault => rw [(Command.run_of_error h).1]

/-- **The sink in force** is the last one that was set. -/
theorem attachedLaw : RunLaw (fun _ => True)
    (fun b t => t.outcome.after.sink = attached b.sink t.calls)
    (fun b ts => (final b ts).sink = attached b.sink (allCalls ts)) where
  command b c _ := attached_command b c
  indented b body tolerant failure h := h
  nil b := rfl
  cons b t ts ht hts := by
    rw [final, hts, ht, allCalls, attached_append]

end Trace

/-! ## Scripts -/

theorem Builder.reset_eq (b : Builder) :
    b.reset = (({ b with buffer := #[] }.atLevel 0).setUnit ({} : Layout).unit).setNewline
      ({} : Layout).newline := rfl

def Script.fresh (sink : Option Sink) (steps : List Step) : Script := { sink, steps }

theorem Builder.reset_eq_start (b : Builder) (steps : List Step) :
    b.reset = (Script.fresh b.sink steps).start := by
  rw [reset_eq]
  rfl

/-- **A reset forgets everything but the sink.** Let any script run, then a reset, and then
any other steps. These do what they do on a new builder with the sink that was set last: each
meets the same builder, is accepted or refused alike, answers and logs the same and leaves the
same behind, in bodies too, and the build ends with the same source or fault and the same last
line. -/
theorem Script.run_after_reset (s : Script) (steps : List Step) :
    let whole : Script := { s with steps := s.steps ++ .command .reset :: steps }
    let alone := Script.fresh (Trace.attached s.sink (Trace.allCalls s.run.traces)) steps
    whole.run.traces =
        s.run.traces ++ .command .reset (Command.reset.run s.run.final) :: alone.run.traces ∧
      whole.run.final = alone.run.final ∧
      whole.run.ending = alone.run.ending := by
  intro whole alone
  have hsink : s.run.final.sink = Trace.attached s.sink (Trace.allCalls s.run.traces) :=
    Trace.attachedLaw.runAll true s.start s.steps fun _ _ => trivial
  have hstart : s.run.final.reset = alone.start := by
    rw [s.run.final.reset_eq_start steps, hsink]
  have htraces : whole.run.traces =
      s.run.traces ++ .command .reset (Command.reset.run s.run.final) :: alone.run.traces := by
    show Step.runAll true s.start (s.steps ++ .command .reset :: steps) = _
    rw [Step.runAll_append, Step.runAll_cons]
    show _ ++ _ :: Step.runAll true s.run.final.reset steps = _
    rw [hstart]
    rfl
  have hfinal : whole.run.final = alone.run.final := by
    show Trace.final s.start whole.run.traces = _
    rw [htraces, Trace.final_append, Trace.final]
    show Trace.final s.run.final.reset alone.run.traces = _
    rw [hstart]
    rfl
  exact ⟨htraces, hfinal, congrArg Builder.ending hfinal⟩

/-- Blocks left open, another layout, and a sink set in a body that stops: of these a script
after the reset sees the sink. -/
example :
    let s : Script :=
      { unit := some "\t", sink := some .refusing,
        steps := [.command (.openBlock .doBlock),
          .indented [.command (.setSink .keeping), .command .newLine, .command (.put (.goto "end")),
            .command (.setSink .refusing)] false none] }
    Trace.attached s.sink (Trace.allCalls s.run.traces) = some .keeping := by
  decide +kernel

end LuaSource
