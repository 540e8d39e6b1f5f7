/-
The source only grows. A step adds fragments at the end and never touches those before it,
whatever it is refused for and wherever a body stops, and only a reset takes anything away.
So the source at any moment is all that was emitted since the last reset, in the order of the
run, and it is the same source however it is asked for.

One command adds what it says it adds (`Command.fragments_of_apply`). The two inductions over
runs carry this on: how many fragments came (`Trace.growthLaw`), and which texts stand at each
moment (`Trace.standingLaw`). For the second the texts are kept beside the run, by what was
accepted alone, as they were when they were emitted.
-/
import LuaSource.Proofs.AuditTrail

namespace LuaSource

/-! ## How much is added -/

/-- How many fragments a command adds if it is accepted. -/
def Command.weight : Command → Nat
  | .put _ | .openBlock _ | .newLine | .newDeeperLine | .newOuterLine | .newBareLine => 1
  | .continueBlock _ | .closeBlock _ => 2
  | .indent | .dedent | .setUnit _ | .setNewline _ | .setSink _ | .reset | .ask _ => 0

theorem Command.length_added (b : Builder) (c : Command) : (c.added b).length = c.weight := by
  cases c <;> rfl

namespace Trace

mutual

/-- How many fragments a step adds: none if it is refused, and a body as many as the steps
that ran in it. -/
def weight : Trace → Nat
  | .command c o => if o.failed then 0 else c.weight
  | .indented _ body => allWeight body

def allWeight : List Trace → Nat
  | [] => 0
  | t :: ts => t.weight + allWeight ts

end

end Trace

/-- `b'` has all that `b` has, and `n` fragments after it. -/
structure Builder.Grows (b b' : Builder) (n : Nat) : Prop where
  fragments : b.fragments <+: b'.fragments
  count : b'.count = b.count + n

namespace Builder.Grows

variable {b b' b'' : Builder} {m n : Nat}

theorem of_append {added : List Fragment} (h : b'.fragments = b.fragments ++ added)
    (hn : added.length = n) : b.Grows b' n := by
  refine ⟨⟨added, h.symm⟩, ?_⟩
  rw [count_eq_length, count_eq_length, h, List.length_append, hn]

theorem refl (b : Builder) : b.Grows b 0 := of_append (List.append_nil _).symm rfl

theorem trans (h : b.Grows b' m) (h' : b'.Grows b'' n) : b.Grows b'' (m + n) := by
  refine ⟨h.fragments.trans h'.fragments, ?_⟩
  rw [h'.count, h.count]
  omega

end Builder.Grows

theorem Command.grows_run {c : Command} (hc : c ≠ .reset) (b : Builder) :
    b.Grows (c.run b).after (Trace.command c (c.run b)).weight := by
  rw [Trace.weight]
  cases h : c.apply b with
  | ok b' =>
    obtain ⟨ha, hf⟩ := run_of_ok h
    rw [ha, if_neg (by simp [hf])]
    exact .of_append (fragments_of_apply hc h) (c.length_added b)
  | error fault =>
    obtain ⟨ha, hf⟩ := run_of_error h
    rw [ha, if_pos hf]
    exact .refl b

/-- **Runs without a reset grow**, by as many fragments as their steps add. -/
theorem Trace.growthLaw : RunLaw (fun _ => True)
    (fun b t => (∀ call ∈ t.calls, call.command ≠ .reset) → b.Grows t.outcome.after t.weight)
    (fun b ts => (∀ call ∈ allCalls ts, call.command ≠ .reset) →
      b.Grows (final b ts) (allWeight ts)) where
  command b c _ h := Command.grows_run (h _ (List.mem_singleton_self _)) b
  indented b body tolerant failure hbody h :=
    -- Raising the level and setting it back leaves the fragments as they are.
    ⟨(hbody h).fragments, (hbody h).count⟩
  nil b _ := .refl b
  cons b t ts ht hts h := by
    obtain ⟨h₁, h₂⟩ := List.forall_mem_append.1 h
    exact (ht h₁).trans (hts h₂)

/-! ## Which texts stand -/

/-- A builder at some moment of a run, and the texts emitted since the last reset. -/
structure Moment where
  builder : Builder
  texts : List String

namespace Trace

mutual

/-- The texts that stand after a step, when `texts` stood before it. -/
def standing (texts : List String) : Trace → List String
  | .command c o =>
    if o.failed then texts
    else if c = .reset then []
    else texts ++ (c.added o.before).map Fragment.render
  | .indented _ body => allStanding texts body

def allStanding (texts : List String) : List Trace → List String
  | [] => texts
  | t :: ts => allStanding (t.standing texts) ts

end

mutual

/-- The moments before and after a step, and those of its body in between. -/
def moments (texts : List String) : Trace → List Moment
  | .command c o => [⟨o.before, texts⟩, ⟨o.after, (Trace.command c o).standing texts⟩]
  | .indented o body =>
    ⟨o.before, texts⟩ :: allMoments texts body ++ [⟨o.after, allStanding texts body⟩]

def allMoments (texts : List String) : List Trace → List Moment
  | [] => []
  | t :: ts => t.moments texts ++ allMoments (t.standing texts) ts

end

end Trace

/-- The builder holds the texts in this order and nothing else, and gives them out joined,
however it is asked. -/
structure Builder.Holds (b : Builder) (texts : List String) : Prop where
  fragments : b.fragments.map Fragment.render = texts
  render : b.render = String.join texts
  display : toString b = String.join texts
  finish : ∀ source, b.finish = .ok source → source = String.join texts

namespace Builder.Holds

variable {b : Builder} {texts : List String}

theorem of_fragments (h : b.fragments.map Fragment.render = texts) : b.Holds texts where
  fragments := h
  render := by rw [Builder.render, h]
  display := by
    show b.display = _
    rw [display_eq_render, Builder.render, h]
  finish source hs := by
    rw [← (finish_eq_ok_iff.1 hs).2, Builder.render, h]

theorem indent (h : b.Holds texts) : b.indent.Holds texts := of_fragments h.fragments

theorem atLevel (h : b.Holds texts) (n : Nat) : (b.atLevel n).Holds texts :=
  of_fragments h.fragments

theorem command (h : b.Holds texts) (c : Command) :
    (c.run b).after.Holds ((Trace.command c (c.run b)).standing texts) := by
  rw [Trace.standing, c.run_before]
  cases ha : c.apply b with
  | error fault =>
    obtain ⟨hb, hf⟩ := Command.run_of_error ha
    rwa [hb, if_pos hf]
  | ok b' =>
    obtain ⟨hb, hf⟩ := Command.run_of_ok ha
    rw [hb, if_neg (by simp [hf])]
    by_cases hc : c = .reset
    · subst hc
      cases ha
      rw [if_pos rfl]
      exact of_fragments rfl
    · rw [if_neg hc]
      refine of_fragments ?_
      rw [Command.fragments_of_apply hc ha, List.map_append, h.fragments]

end Builder.Holds

/-- **What stands is what was emitted**, at every moment of a run. -/
theorem Trace.standingLaw : RunLaw (fun _ => True)
    (fun b t => ∀ texts, b.Holds texts →
      t.outcome.after.Holds (t.standing texts) ∧ ∀ m ∈ t.moments texts, m.builder.Holds m.texts)
    (fun b ts => ∀ texts, b.Holds texts →
      (final b ts).Holds (allStanding texts ts) ∧
        ∀ m ∈ allMoments texts ts, m.builder.Holds m.texts) where
  command b c _ texts h := by
    have hafter := h.command c
    refine ⟨hafter, fun m hm => ?_⟩
    simp only [moments, List.mem_cons, List.not_mem_nil, or_false] at hm
    rcases hm with rfl | rfl
    · show (c.run b).before.Holds texts
      rwa [c.run_before]
    · exact hafter
  indented b body tolerant failure hbody texts h := by
    obtain ⟨hfinal, hmoments⟩ := hbody texts h.indent
    have hafter := hfinal.atLevel b.level
    refine ⟨hafter, fun m hm => ?_⟩
    simp only [Step.run, moments, List.mem_append, List.mem_cons, List.not_mem_nil, or_false] at hm
    rcases hm with (rfl | hm) | rfl
    · exact h
    · exact hmoments m hm
    · exact hafter
  nil b texts h := ⟨h, fun _ hm => by cases hm⟩
  cons b t ts ht hts texts h := by
    obtain ⟨hafter, hmoments⟩ := ht texts h
    obtain ⟨hfinal, hrest⟩ := hts _ hafter
    refine ⟨hfinal, fun m hm => ?_⟩
    rcases List.mem_append.1 hm with hm | hm
    · exact hmoments m hm
    · exact hrest m hm

/-! ## Scripts -/

/-- **The source only grows, and is all there is.** Whatever a step does other than reset, on
any builder, what was there stays as it was and in its place, and so many fragments come after
it as the accepted commands of the step add, those of a body that stopped half way among them.
At every moment of a script, in bodies and between them, the builder holds the texts emitted
since the last reset, each as it was when it was emitted: this is the source that is rendered,
displayed, and given out when the build ends. -/
theorem Script.source_grows :
    (∀ (b : Builder) (s : Step), (∀ call ∈ (s.run b).calls, call.command ≠ .reset) →
      b.Grows (s.run b).outcome.after (s.run b).weight) ∧
    ∀ s : Script,
      (∀ m ∈ Trace.allMoments [] s.run.traces, m.builder.Holds m.texts) ∧
        s.run.final.Holds (Trace.allStanding [] s.run.traces) ∧
        ∀ source, s.run.ending.verdict = .ok source →
          source = String.join (Trace.allStanding [] s.run.traces) := by
  refine ⟨fun b s h => Trace.growthLaw.run b s (fun _ _ => trivial) h, fun s => ?_⟩
  obtain ⟨hfinal, hmoments⟩ : s.run.final.Holds (Trace.allStanding [] s.run.traces) ∧
      ∀ m ∈ Trace.allMoments [] s.run.traces, m.builder.Holds m.texts :=
    Trace.standingLaw.runAll true s.start s.steps (fun _ _ => trivial) [] (.of_fragments rfl)
  exact ⟨hmoments, hfinal, hfinal.finish⟩

/-- A body that changes the unit, and stops before it comes to the reset. -/
def stoppedStep : Step :=
  .indented
    [.command .newLine,
      .command (.setUnit "\t"),
      .command (.openBlock .doBlock),
      .command (.closeBlock .endBlock),
      .command (.ask .source),
      .command (.put (.goto "end")),
      .command .reset] false none

/-- Four fragments come of it, and the line from before the change keeps its unit. -/
theorem source_grows_stoppedStep :
    let b : Builder := { level := 1 }
    (∀ call ∈ (stoppedStep.run b).calls, call.command ≠ .reset) ∧
      (stoppedStep.run b).outcome.after.count = b.count + 4 ∧
      (stoppedStep.run b).outcome.after.render = "\n        do\n\t\tend" := by
  intro b
  have h : ∀ call ∈ (stoppedStep.run b).calls, call.command ≠ .reset := by decide +kernel
  have hw : (stoppedStep.run b).weight = 4 := by decide +kernel
  refine ⟨h, ?_, by decide +kernel⟩
  rw [(Script.source_grows.1 b stoppedStep h).count, hw]

end LuaSource
