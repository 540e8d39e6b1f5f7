/-
The journal is no part of the source. A script may set its sink anywhere, at the start
and in the middle of a body, and the sink may keep lines or refuse them: all other steps
do what they do in the script without any sink, with the same verdicts, and the build ends
in the same way.

Taking the sinks away commutes with running. One effect does not see the sink
(`Effect.apply_silent`), so a command does not, and a step that sets it is never refused
and changes nothing else (`Trace.sinkLaw`), so a body that stops at its first failing step
stops at the same one (`Step.runAll_silent`).
-/
import LuaSource.Report
import LuaSource.Proofs.BuilderFacts
import LuaSource.Proofs.InPlace
import LuaSource.Proofs.RunFacts

namespace LuaSource

/-! ## Without sinks -/

def Builder.silent (b : Builder) : Builder := { b with sink := none }

theorem Builder.render_silent (b : Builder) : b.silent.render = b.render := rfl

theorem Builder.display_silent (b : Builder) : b.silent.display = b.display := rfl

theorem Builder.finish_silent (b : Builder) : b.silent.finish = b.finish := rfl

/-- What a step did and what it answered, less the sinks and what they kept. -/
def Outcome.silent (o : Outcome) : Outcome :=
  { before := o.before.silent, after := o.after.silent, verdict := o.verdict, log := "" }

namespace Step

def setsSink : Step → Bool
  | .command c => c.setsSink
  | .indented _ _ _ => false

mutual

/-- The step without the commands in its bodies that set the sink. -/
def silent : Step → Step
  | .command c => .command c
  | .indented body tolerant failure => .indented (allSilent body) tolerant failure

def allSilent : List Step → List Step
  | [] => []
  | s :: ss => if s.setsSink then allSilent ss else s.silent :: allSilent ss

end

end Step

namespace Trace

def setsSink : Trace → Bool
  | .command c _ => c.setsSink
  | .indented _ _ => false

mutual

/-- The trace without the steps in its bodies that set the sink, and without all logs. -/
def silent : Trace → Trace
  | .command c o => .command c o.silent
  | .indented o body => .indented o.silent (allSilent body)

def allSilent : List Trace → List Trace
  | [] => []
  | t :: ts => if t.setsSink then allSilent ts else t.silent :: allSilent ts

end

end Trace

def Script.silent (s : Script) : Script := { s with sink := none, steps := Step.allSilent s.steps }

/-! ## Commands -/

theorem Effect.apply_silent {e : Effect} (he : ∀ sink, e ≠ .setSink sink) (b : Builder) :
    e.apply b.silent = (e.apply b).map Builder.silent := by
  cases e with
  | setSink sink => exact absurd rfl (he sink)
  | check fault? => cases fault? <;> rfl
  | lower =>
    show Builder.dedent _ = (Builder.dedent _).map _
    unfold Builder.dedent
    cases hn : b.level <;> simp only [Builder.silent, hn] <;> rfl
  | raise | write | breakLine | breakBare | setUnit | setNewline | clear => rfl

theorem Effect.foldlM_silent {es : List Effect} (he : ∀ e ∈ es, ∀ sink, e ≠ .setSink sink)
    (b : Builder) : es.foldlM Effect.apply b.silent = (es.foldlM Effect.apply b).map Builder.silent := by
  induction es generalizing b with
  | nil => rfl
  | cons e es ih =>
    rw [List.foldlM_cons, List.foldlM_cons, Effect.apply_silent (he e List.mem_cons_self)]
    cases e.apply b with
    | error fault => rfl
    | ok b' => exact ih (fun e' he' => he e' (List.mem_cons_of_mem e he')) b'

namespace Command

variable {c : Command}

theorem apply_silent (hc : c.setsSink = false) (b : Builder) :
    c.apply b.silent = (c.apply b).map Builder.silent := by
  rw [← c.foldlM_effects, ← c.foldlM_effects]
  refine Effect.foldlM_silent (fun e he sink hs => ?_) b
  subst hs
  cases c with
  | setSink => cases hc
  | put | openBlock | continueBlock | closeBlock | indent | dedent | newLine | newDeeperLine |
      newOuterLine | newBareLine | setUnit | setNewline | reset | ask => simp [effects] at he

theorem reply_silent (b : Builder) (c : Command) : c.reply b.silent = c.reply b := by
  cases c with
  | ask q => cases q <;> rfl
  | put | openBlock | continueBlock | closeBlock | indent | dedent | newLine | newDeeperLine |
      newOuterLine | newBareLine | setUnit | setNewline | setSink | reset => rfl

theorem run_silent (hc : c.setsSink = false) (b : Builder) : c.run b.silent = (c.run b).silent := by
  unfold run
  rw [apply_silent hc]
  cases c.apply b with
  | error fault => rfl
  | ok b' =>
    have hlog : ((c.event? b.silent).map (·.kept b.silent.sink)).getD "" = "" := by
      cases c.event? b.silent <;> rfl
    simp only [Except.map, Outcome.silent, reply_silent, hlog]

/-- Setting the sink is never refused, and does nothing else. -/
theorem run_of_setsSink (hc : c.setsSink = true) (b : Builder) :
    (c.run b).failed = false ∧ (c.run b).after.silent = b.silent := by
  cases c with
  | setSink sink => exact ⟨rfl, rfl⟩
  | put | openBlock | continueBlock | closeBlock | indent | dedent | newLine | newDeeperLine |
      newOuterLine | newBareLine | setUnit | setNewline | reset | ask => cases hc

end Command

/-! ## Runs -/

namespace Trace

theorem outcome_silent (t : Trace) : t.silent.outcome = t.outcome.silent := by
  cases t <;> rfl

theorem logs_allSilent (ts : List Trace) : logs (allSilent ts) = "" := by
  induction ts with
  | nil => rfl
  | cons t ts ih =>
    rw [allSilent]
    split
    · exact ih
    · rw [logs_cons, ih, outcome_silent]
      rfl

/-- A step that sets the sink hands on the builder that it got, but for the sink, and is not
the step at which a body stops. -/
theorem sinkLaw : RunLaw (fun _ => True)
    (fun b t => t.setsSink = true → t.outcome.failed = false ∧ t.outcome.after.silent = b.silent)
    (fun b ts => final b.silent (allSilent ts) = (final b ts).silent ∧
      (allSilent ts).find? (·.outcome.failed) = (ts.find? (·.outcome.failed)).map silent) where
  command b c _ hc := Command.run_of_setsSink hc b
  indented b body tolerant failure _ hs := by cases hs
  nil b := ⟨rfl, rfl⟩
  cons b t ts ht hts := by
    rw [allSilent]
    by_cases hs : t.setsSink = true
    · obtain ⟨hf, hb⟩ := ht hs
      rw [if_pos hs, List.find?_cons_of_neg (by rw [hf]; decide), ← hb]
      exact hts
    · rw [if_neg hs, final, outcome_silent]
      refine ⟨hts.1, ?_⟩
      have hf : t.silent.outcome.failed = t.outcome.failed := by rw [outcome_silent]; rfl
      rw [List.find?_cons, List.find?_cons, hf]
      cases t.outcome.failed with
      | true => rfl
      | false => exact hts.2

theorem final_allSilent (tolerant : Bool) (b : Builder) (ss : List Step) :
    final b.silent (allSilent (Step.runAll tolerant b ss)) =
      (final b (Step.runAll tolerant b ss)).silent :=
  (sinkLaw.runAll tolerant b ss fun _ _ => trivial).1

theorem bodyVerdict_allSilent (tolerant : Bool) (failure : Option String) (b : Builder)
    (ss : List Step) :
    let ts := Step.runAll tolerant b ss
    Step.bodyVerdict tolerant failure (allSilent ts) = Step.bodyVerdict tolerant failure ts := by
  intro ts
  have hf : (allSilent ts).find? (·.outcome.failed) = (ts.find? (·.outcome.failed)).map silent :=
    (sinkLaw.runAll tolerant b ss fun _ _ => trivial).2
  unfold Step.bodyVerdict
  rw [hf]
  cases tolerant with
  | true => rfl
  | false =>
    cases ts.find? (·.outcome.failed) with
    | none => rfl
    | some t =>
      show t.silent.outcome.verdict = t.outcome.verdict
      rw [outcome_silent]
      rfl

end Trace

namespace Step

theorem setsSink_run (b : Builder) (s : Step) : (s.run b).setsSink = s.setsSink := by
  cases s <;> rfl

mutual

theorem run_silent (b : Builder) : ∀ s : Step, s.setsSink = false →
    s.silent.run b.silent = (s.run b).silent
  | .command c, hs => by
    rw [silent, run, run, Trace.silent, Command.run_silent hs]
  | .indented body tolerant failure, _ => by
    have hb := runAll_silent tolerant b.indent body
    have hf := Trace.final_allSilent tolerant b.indent body
    have hv := Trace.bodyVerdict_allSilent tolerant failure b.indent body
    have hr : runAll tolerant b.silent.indent (allSilent body) =
        Trace.allSilent (runAll tolerant b.indent body) := hb
    rw [silent, run, run, Trace.silent, Trace.indented.injEq]
    refine ⟨?_, hr⟩
    rw [hr, hv, Trace.logs_allSilent]
    show Outcome.mk _ ((Trace.final b.indent.silent _).atLevel _) _ _ = _
    rw [hf]
    rfl

/-- **Taking the sinks away** before a run or after it comes to the same. -/
theorem runAll_silent (tolerant : Bool) (b : Builder) : ∀ ss : List Step,
    runAll tolerant b.silent (allSilent ss) = Trace.allSilent (runAll tolerant b ss)
  | [] => rfl
  | s :: ss => by
    have hset := setsSink_run b s
    rw [allSilent, runAll]
    by_cases hs : s.setsSink = true
    · obtain ⟨hf, hb⟩ := Trace.sinkLaw.run b s (fun _ _ => trivial) (hset.trans hs)
      have ih := runAll_silent tolerant (s.run b).outcome.after ss
      rw [if_pos hs, if_neg (by simp [hf]), Trace.allSilent, if_pos (hset.trans hs), ← ih, hb]
    · rw [Bool.not_eq_true] at hs
      have ih := runAll_silent tolerant (s.run b).outcome.after ss
      have ht := run_silent b s hs
      have hf : (s.silent.run b.silent).outcome.failed = (s.run b).outcome.failed := by
        rw [ht, Trace.outcome_silent]
        rfl
      have hk : ¬ (s.run b).setsSink = true := by rw [hset, hs]; decide
      rw [if_neg (by rw [hs]; decide), runAll, hf]
      split
      · rw [Trace.allSilent, if_neg hk, ht, Trace.allSilent]
      · rw [Trace.allSilent, if_neg hk, ht, Trace.outcome_silent]
        exact congrArg _ ih

end

end Step

/-! ## Scripts -/

/-- **The journal is no part of the source.** Let two scripts be the same but for their sinks:
for the one attached at the start, and for the steps that set another, which may come
anywhere and any number of times. Then they have the same steps otherwise, with the same
verdicts on the same builders, and so with the same levels, counts and additions to the
source, and both end with the same source or the same fault. -/
theorem Script.run_of_silent_eq (s s' : Script) (h : s.silent = s'.silent) :
    Trace.allSilent s.run.traces = Trace.allSilent s'.run.traces ∧
      (∀ o : Outcome, o.silent.verdict = o.verdict ∧ o.silent.change = o.change ∧
        o.silent.after.level = o.after.level ∧ o.silent.after.count = o.after.count) ∧
      s.run.final.render = s'.run.final.render ∧
      s.run.final.display = s'.run.final.display ∧
      s.run.ending.verdict = s'.run.ending.verdict := by
  have ht (s : Script) : Trace.allSilent s.run.traces = s.silent.run.traces :=
    (Step.runAll_silent true s.start s.steps).symm
  have hb (s : Script) : s.run.final.silent = s.silent.run.final := by
    show (Trace.final s.start s.run.traces).silent = Trace.final s.start.silent s.silent.run.traces
    rw [← ht]
    exact (Trace.final_allSilent true s.start s.steps).symm
  have hf : s.run.final.silent = s'.run.final.silent := by rw [hb, hb, h]
  refine ⟨by rw [ht, ht, h], fun o => ⟨rfl, rfl, rfl, rfl⟩, ?_, ?_, ?_⟩
  · rw [← Builder.render_silent, hf, Builder.render_silent]
  · rw [← Builder.display_silent, hf, Builder.display_silent]
  · show s.run.final.finish = s'.run.final.finish
    rw [← Builder.finish_silent, hf, Builder.finish_silent]

/-- A sink from the start, another in a body that stops half way, and one more after it. -/
def chattyScript : Script where
  sink := some .keeping
  steps :=
    [.command (.closeBlock .endBlock),
      .command (.openBlock (.ifThen "x")),
      .indented [.command (.setSink .refusing), .command .newLine, .command (.put (.field "a b")),
        .command (.setSink .keeping), .command .newLine] false none,
      .command (.setSink .keeping),
      .command (.closeBlock .endBlock),
      .command (.closeBlock .endBlock)]

/-- The same with no sink but one, in another place. -/
def mutedScript : Script where
  steps :=
    [.command (.closeBlock .endBlock),
      .command (.openBlock (.ifThen "x")),
      .indented [.command .newLine, .command (.setSink .keeping), .command (.put (.field "a b")),
        .command .newLine] false none,
      .command (.setSink .refusing),
      .command (.closeBlock .endBlock),
      .command (.closeBlock .endBlock)]

/-- Different lines are kept of them, and the source is the same. -/
theorem run_of_silent_eq_chattyScript :
    chattyScript.silent = mutedScript.silent ∧
      Trace.logs chattyScript.run.traces = "luasmith: Rejected dedent at indentation level 0\n" ++
        "luasmith: Rejected dedent at indentation level 0\n" ∧
      Trace.logs mutedScript.run.traces =
        "luasmith: Invalid argument: Field name must be a valid Lua name, got 'a b'\n" ∧
      mutedScript.run.ending.verdict = .ok "if x then\n        \nend" ∧
      chattyScript.run.ending.verdict = .ok "if x then\n        \nend" := by
  have h : chattyScript.silent = mutedScript.silent := rfl
  have hm : mutedScript.run.final.finish = .ok "if x then\n        \nend" :=
    Builder.finish_eq_ok_iff.2 ⟨by decide +kernel, by decide +kernel⟩
  refine ⟨h, by decide +kernel, by decide +kernel, hm, ?_⟩
  exact (Script.run_of_silent_eq chattyScript mutedScript h).2.2.2.2.trans hm

end LuaSource
