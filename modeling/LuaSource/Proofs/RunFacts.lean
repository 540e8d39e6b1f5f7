/-
Facts about runs: what a command is refused for, what it adds and what its
outcome is, that commands which are all accepted make a run of their own length
with no failure in it, that a run goes on where the one before it ended, and one
induction for whatever holds of all runs.
-/
import LuaSource.Script
import LuaSource.Proofs.BuilderFacts

namespace LuaSource

/-! ## Refusals -/

namespace Command

/-- Whether a command lowers the level before it does anything else. -/
def lowers : Command → Bool
  | .continueBlock _ | .closeBlock _ | .dedent | .newOuterLine => true
  | _ => false

def setsSink : Command → Bool
  | .setSink _ => true
  | _ => false

def argumentFault? : Command → Option ArgumentFault
  | .put p => p.fault?
  | .openBlock o => o.fault?
  | _ => none

theorem lowers_of_argumentFault? {c : Command} {f : ArgumentFault}
    (h : c.argumentFault? = some f) : c.lowers = false := by
  cases c with
  | continueBlock | closeBlock | dedent | newOuterLine => cases h
  | put | openBlock | indent | newLine | newDeeperLine | newBareLine | setUnit | setNewline |
      setSink | reset | ask => rfl

/-- A command is refused for the level or for an argument, and for nothing else. -/
theorem apply_eq_error_iff {b : Builder} {c : Command} {fault : Fault} :
    c.apply b = .error fault ↔
      (c.lowers = true ∧ b.level = 0 ∧ fault = .levelIsZero) ∨
        ∃ f, c.argumentFault? = some f ∧ fault = .badArgument f := by
  cases c with
  | put p =>
    refine Builder.unlessFault_eq_error_iff.trans ?_
    simp [lowers, argumentFault?]
  | openBlock o =>
    refine Builder.unlessFault_eq_error_iff.trans ?_
    simp [lowers, argumentFault?]
  | continueBlock br =>
    refine Builder.newOuterLine_map_eq_error_iff.trans ?_
    simp [lowers, argumentFault?]
  | closeBlock cl =>
    refine Builder.newOuterLine_map_eq_error_iff.trans ?_
    simp [lowers, argumentFault?]
  | dedent =>
    refine Builder.dedent_eq_error_iff.trans ?_
    simp [lowers, argumentFault?]
  | newOuterLine =>
    refine Builder.dedent_map_eq_error_iff.trans ?_
    simp [lowers, argumentFault?]
  | indent | newLine | newDeeperLine | newBareLine | setUnit | setNewline | setSink | reset | ask =>
    simp [apply, lowers, argumentFault?]

end Command

/-! ## Additions -/

namespace Command

/-- The fragments that a builder gets from a command that it accepts. A branch and a closer
are a line one level further out, and the text on it. -/
def added (b : Builder) : Command → List Fragment
  | .put p => [.text p.text]
  | .openBlock o => [.text o.text]
  | .continueBlock br => [.line b.layout (b.level - 1), .text br.text]
  | .closeBlock c => [.line b.layout (b.level - 1), .text c.text]
  | .newLine => [.line b.layout b.level]
  | .newDeeperLine => [.line b.layout (b.level + 1)]
  | .newOuterLine => [.line b.layout (b.level - 1)]
  | .newBareLine => [.bareLine b.layout]
  | .indent | .dedent | .setUnit _ | .setNewline _ | .setSink _ | .reset | .ask _ => []

theorem fragments_of_apply {b b' : Builder} {c : Command} (hc : c ≠ .reset)
    (h : c.apply b = .ok b') : b'.fragments = b.fragments ++ c.added b := by
  cases c with
  | reset => exact absurd rfl hc
  | indent | setUnit | setNewline | setSink | ask =>
    cases h
    exact (List.append_nil _).symm
  | newLine =>
    cases h
    exact b.fragments_newLine
  | newDeeperLine =>
    cases h
    exact b.indent.fragments_newLine
  | newBareLine =>
    cases h
    exact b.fragments_emit _
  | dedent =>
    obtain ⟨n, -, rfl⟩ := Builder.dedent_eq_ok_iff.1 h
    exact (List.append_nil _).symm
  | put p =>
    obtain ⟨-, rfl⟩ := Builder.put_eq_ok_iff.1 h
    exact b.fragments_append _
  | openBlock o =>
    obtain ⟨-, rfl⟩ := Builder.openBlock_eq_ok_iff.1 h
    exact b.fragments_append _
  | newOuterLine =>
    obtain ⟨n, hn, rfl⟩ := Builder.newOuterLine_eq_ok_iff.1 h
    simp [added, hn]
  | continueBlock br =>
    obtain ⟨n, hn, rfl⟩ := Builder.continueBlock_eq_ok_iff.1 h
    simp [added, hn]
  | closeBlock cl =>
    obtain ⟨n, hn, rfl⟩ := Builder.closeBlock_eq_ok_iff.1 h
    simp [added, hn]

theorem eq_layout_of_line_mem_added {b : Builder} {c : Command} {l : Layout} {depth : Nat}
    (h : Fragment.line l depth ∈ c.added b) : l = b.layout := by
  cases c <;> simp_all [added]

end Command

/-! ## Outcomes -/

theorem Command.run_of_ok {b b' : Builder} {c : Command} (h : c.apply b = .ok b') :
    (c.run b).after = b' ∧ (c.run b).failed = false := by
  simp only [Command.run, h, Outcome.failed, Except.isOk, Except.toBool, Bool.not_true, and_self]

theorem Command.run_of_error {b : Builder} {c : Command} {fault : Fault}
    (h : c.apply b = .error fault) : (c.run b).after = b ∧ (c.run b).failed = true := by
  simp only [Command.run, h, Outcome.failed, Except.isOk, Except.toBool, Bool.not_false, and_self]

theorem Command.run_before (b : Builder) (c : Command) : (c.run b).before = b := by
  unfold Command.run
  split <;> rfl

theorem Command.apply_of_not_failed {b : Builder} {c : Command} (h : (c.run b).failed = false) :
    c.apply b = .ok (c.run b).after := by
  cases ha : c.apply b with
  | ok b' => rw [(Command.run_of_ok ha).1]
  | error fault =>
    rw [(Command.run_of_error ha).2] at h
    cases h

/-! ## Commands that are all accepted -/

/-- The commands, one after the other, are accepted and make `b'` of `b`. -/
inductive Accepts : Builder → List Command → Builder → Prop
  | nil {b : Builder} : Accepts b [] b
  | cons {b b' b'' : Builder} {c : Command} {cs : List Command} :
    c.apply b = .ok b' → Accepts b' cs b'' → Accepts b (c :: cs) b''

theorem Accepts.append {b b' b'' : Builder} {cs cs' : List Command} (h : Accepts b cs b')
    (h' : Accepts b' cs' b'') : Accepts b (cs ++ cs') b'' := by
  induction h with
  | nil => exact h'
  | cons hc _ ih => exact .cons hc (ih h')

theorem Accepts.runAll {b b' : Builder} {cs : List Command} (h : Accepts b cs b') (tolerant : Bool) :
    (Step.runAll tolerant b (cs.map .command)).length = cs.length ∧
      (∀ t ∈ Step.runAll tolerant b (cs.map .command), t.outcome.failed = false) ∧
      Trace.final b (Step.runAll tolerant b (cs.map .command)) = b' := by
  induction h with
  | nil => simp [Step.runAll, Trace.final]
  | cons hc _ ih =>
    obtain ⟨ha, hf⟩ := Command.run_of_ok hc
    simp only [List.map_cons, Step.runAll, Step.run, Trace.outcome, ha, hf, Bool.false_and,
      Bool.false_eq_true, if_false, List.length_cons, List.forall_mem_cons, Trace.final]
    exact ⟨by rw [ih.1], ⟨trivial, ih.2.1⟩, ih.2.2⟩

/-! ## Runs of commands -/

theorem Step.runAll_commands_cons (b : Builder) (c : Command) (cs : List Command) :
    Step.runAll true b ((c :: cs).map .command) =
      .command c (c.run b) :: Step.runAll true (c.run b).after (cs.map .command) := by
  simp [Step.runAll, Step.run, Trace.outcome]

/-- A trace in a run of commands is the run of its command on the builder that the
commands before it made. -/
theorem Step.runAll_commands_eq_append {c : Command} {o : Outcome} {ts' : List Trace} :
    ∀ {cs : List Command} {b : Builder} {ts : List Trace},
    Step.runAll true b (cs.map .command) = ts ++ .command c o :: ts' →
      ∃ cs₁ cs₂, cs = cs₁ ++ c :: cs₂ ∧ ts = Step.runAll true b (cs₁.map .command) ∧
        o = c.run (Trace.final b ts)
  | [], _, ts, h => by simp [Step.runAll] at h
  | c' :: cs, b, [], h => by
    rw [Step.runAll_commands_cons, List.nil_append, List.cons.injEq, Trace.command.injEq] at h
    obtain ⟨⟨rfl, rfl⟩, -⟩ := h
    exact ⟨[], cs, rfl, rfl, rfl⟩
  | c' :: cs, b, t :: ts, h => by
    rw [Step.runAll_commands_cons, List.cons_append, List.cons.injEq] at h
    obtain ⟨rfl, h⟩ := h
    obtain ⟨cs₁, cs₂, rfl, rfl, rfl⟩ := Step.runAll_commands_eq_append h
    exact ⟨c' :: cs₁, cs₂, rfl, (Step.runAll_commands_cons b c' cs₁).symm, rfl⟩

/-! ## One run after another -/

theorem Trace.final_append (b : Builder) : ∀ ts ts' : List Trace,
    final b (ts ++ ts') = final (final b ts) ts'
  | [], _ => rfl
  | t :: ts, ts' => final_append t.outcome.after ts ts'

theorem Trace.logs_cons (t : Trace) (ts : List Trace) : logs (t :: ts) = t.outcome.log ++ logs ts := by
  rw [logs, List.map_cons, String.join_cons, logs]

theorem Trace.logs_append (ts ts' : List Trace) : logs (ts ++ ts') = logs ts ++ logs ts' := by
  rw [logs, List.map_append, String.join_append, logs, logs]

theorem Step.runAll_cons (b : Builder) (s : Step) (ss : List Step) :
    runAll true b (s :: ss) = s.run b :: runAll true (s.run b).outcome.after ss := by
  simp [runAll]

theorem Step.runAll_append (b : Builder) : ∀ ss ss' : List Step,
    runAll true b (ss ++ ss') =
      runAll true b ss ++ runAll true (Trace.final b (runAll true b ss)) ss'
  | [], _ => rfl
  | s :: ss, ss' => by
    rw [List.cons_append, runAll_cons, runAll_cons, runAll_append, List.cons_append, Trace.final]

/-! ## Induction over runs -/

mutual

/-- The commands of a step, those in its bodies among them. -/
def Step.commands : Step → List Command
  | .command c => [c]
  | .indented body _ _ => Step.allCommands body

def Step.allCommands : List Step → List Command
  | [] => []
  | s :: ss => s.commands ++ Step.allCommands ss

end

/-- What a property of runs needs, to hold of all runs of allowed commands: each
step has it, a body by what ran in it, and it goes from a step and the rest of
the run to the whole. -/
structure RunLaw (allowed : Command → Prop) (one : Builder → Trace → Prop)
    (all : Builder → List Trace → Prop) : Prop where
  command : ∀ b c, allowed c → one b (.command c (c.run b))
  indented : ∀ b body tolerant failure, all b.indent (Step.runAll tolerant b.indent body) →
    one b (Step.run b (.indented body tolerant failure))
  nil : ∀ b, all b []
  cons : ∀ b t ts, one b t → all t.outcome.after ts → all b (t :: ts)

section

variable {allowed : Command → Prop} {one : Builder → Trace → Prop}
  {all : Builder → List Trace → Prop}

mutual

theorem RunLaw.run (law : RunLaw allowed one all) (b : Builder) :
    ∀ s : Step, (∀ c ∈ s.commands, allowed c) → one b (s.run b)
  | .command c, h => law.command b c (h c (by simp [Step.commands]))
  | .indented body tolerant failure, h =>
    law.indented b body tolerant failure (law.runAll tolerant b.indent body h)

/-- A run that was cut short needs no case of its own: it is the trace that
failed, and then none. -/
theorem RunLaw.runAll (law : RunLaw allowed one all) (tolerant : Bool) (b : Builder) :
    ∀ ss : List Step, (∀ c ∈ Step.allCommands ss, allowed c) → all b (Step.runAll tolerant b ss)
  | [], _ => law.nil b
  | s :: ss, h => by
    rw [Step.allCommands, List.forall_mem_append] at h
    have ht := law.run b s h.1
    rw [Step.runAll]
    split
    · exact law.cons b _ [] ht (law.nil _)
    · exact law.cons b _ _ ht (law.runAll tolerant _ ss h.2)

end

end

end LuaSource
