/-
Refused commands leave no mark. Of one command this is so since what can be
refused of it comes before what it changes (`Proofs.InPlace`). For whole scripts:
without its refused commands a script does what it did with them, if none of its
bodies stops at a failing step. Each remaining step meets the builder that it
met before, since a refused command hands on the builder that it got.
-/
import LuaSource.Report
import LuaSource.Proofs.InPlace
import LuaSource.Proofs.RunFacts

namespace LuaSource

/-! ## Without refused commands -/

def Outcome.withLog (o : Outcome) (log : String) : Outcome := { o with log }

namespace Trace

mutual

/-- What is left of a trace without the refused commands. A body is left with
its own log, the lines of the steps that are left in it. -/
def withoutRefused : Trace → List Trace
  | .command c o => if o.failed then [] else [.command c o]
  | .indented o body =>
    [.indented (o.withLog (logs (allWithoutRefused body))) (allWithoutRefused body)]

def allWithoutRefused : List Trace → List Trace
  | [] => []
  | t :: ts => t.withoutRefused ++ allWithoutRefused ts

end

end Trace

namespace Step

mutual

/-- No body in the step stops at a failing step. -/
def tolerant : Step → Bool
  | .command _ => true
  | .indented body tol _ => tol && allTolerant body

def allTolerant : List Step → Bool
  | [] => true
  | s :: ss => s.tolerant && allTolerant ss

end

mutual

/-- What is left of a step without the commands that are refused when it runs
from `b`. -/
def withoutRefused (b : Builder) : Step → List Step
  | .command c => if (c.run b).failed then [] else [.command c]
  | .indented body tol failure => [.indented (allWithoutRefused b.indent body) tol failure]

def allWithoutRefused (b : Builder) : List Step → List Step
  | [] => []
  | s :: ss => s.withoutRefused b ++ allWithoutRefused (s.run b).outcome.after ss

end

end Step

/-! ## Runs -/

/-- A refused command hands on the builder that it got, so no builder further on
tells whether it is there. -/
theorem Trace.finalLaw : RunLaw (fun _ => True)
    (fun b t => Trace.final b t.withoutRefused = t.outcome.after)
    (fun b ts => Trace.final b (Trace.allWithoutRefused ts) = Trace.final b ts) where
  command b c _ := by
    cases h : c.apply b with
    | ok b' =>
      obtain ⟨-, hf⟩ := Command.run_of_ok h
      rw [withoutRefused, if_neg (by rw [hf]; decide)]
      rfl
    | error fault =>
      obtain ⟨ha, hf⟩ := Command.run_of_error h
      rw [withoutRefused, if_pos hf]
      exact ha.symm
  indented b body tolerant failure _ := rfl
  nil b := rfl
  cons b t ts ht hts := by
    rw [allWithoutRefused, final_append, ht, hts, final]

theorem Trace.final_allWithoutRefused (b : Builder) (ss : List Step) :
    Trace.final b (Trace.allWithoutRefused (Step.runAll true b ss)) =
      Trace.final b (Step.runAll true b ss) :=
  Trace.finalLaw.runAll true b ss fun _ _ => trivial

mutual

theorem Step.runAll_withoutRefused (b : Builder) : ∀ s : Step, s.tolerant = true →
    Step.runAll true b (s.withoutRefused b) = (s.run b).withoutRefused
  | .command c, _ => by
    rw [Step.withoutRefused, Step.run, Trace.withoutRefused]
    split
    · rfl
    · rw [Step.runAll_cons, Step.runAll, Step.run]
  | .indented body tol failure, h => by
    simp only [Step.tolerant, Bool.and_eq_true] at h
    obtain ⟨rfl, hb⟩ := h
    have hr := Step.runAll_allWithoutRefused b.indent body hb
    have hf := Trace.final_allWithoutRefused b.indent body
    rw [Step.withoutRefused, Step.runAll_cons, Step.runAll]
    simp only [Step.run, Trace.withoutRefused, hr, hf]
    rfl

theorem Step.runAll_allWithoutRefused (b : Builder) : ∀ ss : List Step, Step.allTolerant ss = true →
    Step.runAll true b (Step.allWithoutRefused b ss) =
      Trace.allWithoutRefused (Step.runAll true b ss)
  | [], _ => rfl
  | s :: ss, h => by
    simp only [Step.allTolerant, Bool.and_eq_true] at h
    have hs := Step.runAll_withoutRefused b s h.1
    have hf : Trace.final b (s.run b).withoutRefused = (s.run b).outcome.after :=
      Trace.finalLaw.run b s fun _ _ => trivial
    rw [Step.allWithoutRefused, Step.runAll_append, hs, hf, Step.runAll_cons,
      Trace.allWithoutRefused, Step.runAll_allWithoutRefused _ ss h.2]

end

/-- The script without the commands that it has refused, those in bodies among
them. -/
def Script.withoutRefused (s : Script) : Script :=
  { s with steps := Step.allWithoutRefused s.start s.steps }

/-- **Refused commands leave no mark.** A command that is done in place and refused
leaves the builder as it was, and refused or not it comes to what its run says.
So a script whose bodies go on after failures can be rid of all commands that
it has refused: the steps that are left do what they did, each on the same
builder and with the same verdict, and the build ends in the same way. Only the
lines that a body logs are fewer. -/
theorem Script.run_withoutRefused :
    (∀ (b b' : Builder) (c : Command) (fault : Fault),
      Effect.perform b c.effects = (b', some fault) → b' = b) ∧
    (∀ (b : Builder) (c : Command),
      Effect.perform b c.effects = ((c.run b).after, (c.run b).fault?)) ∧
    ∀ s : Script, Step.allTolerant s.steps = true →
      s.withoutRefused.run.traces = Trace.allWithoutRefused s.run.traces ∧
        s.withoutRefused.run.final = s.run.final ∧
        s.withoutRefused.run.ending = s.run.ending := by
  refine ⟨fun b b' c fault hp => Effect.eq_of_perform_guarded c.guarded_effects hp,
    fun b c => c.perform_effects b, fun s h => ?_⟩
  have ht : s.withoutRefused.run.traces = Trace.allWithoutRefused s.run.traces :=
    Step.runAll_allWithoutRefused s.start s.steps h
  have hf : s.withoutRefused.run.final = s.run.final := by
    show Trace.final s.start s.withoutRefused.run.traces = s.run.final
    rw [ht]
    exact Trace.final_allWithoutRefused s.start s.steps
  exact ⟨ht, hf, congrArg Builder.ending hf⟩

/-- A loop whose body fails and has refused commands in it, one of them in a body
of its own; a closer too many goes before it. -/
def obstinateScript : Script where
  unit := some "\t"
  sink := some .keeping
  steps :=
    [.command (.closeBlock .endBlock),
      .command (.openBlock .repeatLoop),
      .indented
        [.command (.put (.field "end")),
          .indented [.command .newLine, .command (.put (.label "a b")),
            .command (.put (.label "done"))] true none,
          .command (.put (.assign ["x", ""] []))] true (some "unfinished"),
      .command (.closeBlock (.untilHolds "done"))]

/-- Half of its commands are left, and its text is the same. -/
theorem run_withoutRefused_obstinateScript :
    (Effect.perform {} (Command.closeBlock .endBlock).effects).2 = some .levelIsZero ∧
    (Effect.perform {} (Command.closeBlock .endBlock).effects).1 = {} ∧
    Step.allTolerant obstinateScript.steps = true ∧
    (Step.allCommands obstinateScript.steps).length = 8 ∧
    (Step.allCommands obstinateScript.withoutRefused.steps).length = 4 ∧
    obstinateScript.withoutRefused.run.ending.verdict =
      .ok "repeat\n\t\t\t::done::\nuntil done" := by
  have hf : (Effect.perform {} (Command.closeBlock .endBlock).effects).2 = some .levelIsZero := rfl
  have hb := Script.run_withoutRefused.1 {} _ (.closeBlock .endBlock) .levelIsZero (Prod.ext rfl hf)
  have h : Step.allTolerant obstinateScript.steps = true := by decide
  refine ⟨hf, hb, h, by decide, by decide, ?_⟩
  rw [(Script.run_withoutRefused.2.2 obstinateScript h).2.2]
  exact congrArg Except.ok (by decide +kernel)

end LuaSource
