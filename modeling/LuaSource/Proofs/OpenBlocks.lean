/-
What a builder knows of open blocks when it is asked to finish. It keeps one
count, the level, and a body of steps that ran one level deeper gives the level
back as it was, whatever the body opened or closed. So the count and the blocks
drift apart by what the bodies leave open, and by nothing else.

`Trace.balance` is the ledger of a run: openers less closers, all those that
were accepted, are the rise of the level and what the bodies left open. A run
that finishes well has therefore closed as many blocks as it opened just if its
bodies together left none open.
-/
import LuaSource.Report
import LuaSource.Proofs.BuilderFacts
import LuaSource.Proofs.RunFacts

namespace LuaSource

/-! ## Openers and closers -/

namespace Command

def opens : Command → Bool
  | .openBlock _ => true
  | _ => false

def closes : Command → Bool
  | .closeBlock _ => true
  | _ => false

/-- Whether a command sets the level by hand and not as the opener, the branch or
the closer of a block. -/
def movesLevel : Command → Bool
  | .indent | .dedent | .newDeeperLine | .newOuterLine | .reset => true
  | _ => false

/-- An opener raises the level by one, a closer lowers it by one, and a branch
does both. -/
theorem level_of_apply {b b' : Builder} {c : Command} (hc : c.movesLevel = false)
    (h : c.apply b = .ok b') :
    b'.level + [c].countP closes = b.level + [c].countP opens := by
  cases c with
  | indent | dedent | newDeeperLine | newOuterLine | reset => cases hc
  | newLine | newBareLine | setUnit | setNewline | setSink | ask => cases h; rfl
  | put p =>
    obtain ⟨-, rfl⟩ := Builder.put_eq_ok_iff.1 h
    rfl
  | openBlock o =>
    obtain ⟨-, rfl⟩ := Builder.openBlock_eq_ok_iff.1 h
    rfl
  | continueBlock br =>
    obtain ⟨n, hn, rfl⟩ := Builder.continueBlock_eq_ok_iff.1 h
    exact hn.symm
  | closeBlock cl =>
    obtain ⟨n, hn, rfl⟩ := Builder.closeBlock_eq_ok_iff.1 h
    exact hn.symm

end Command

/-! ## The ledger of a run -/

namespace Trace

mutual

/-- The accepted commands of a trace, those of its bodies among them, in the order
in which they ran. -/
def accepted : Trace → List Command
  | .command c o => if o.failed then [] else [c]
  | .indented _ body => allAccepted body

def allAccepted : List Trace → List Command
  | [] => []
  | t :: ts => t.accepted ++ allAccepted ts

end

mutual

/-- How many blocks the bodies of a trace leave open: how far each body ends above
the level at which it started. A body that closes more than it opens leaves
less than none. -/
def leftOpen : Trace → Int
  | .command _ _ => 0
  | .indented o body =>
    (final o.before.indent body).level - o.before.indent.level + allLeftOpen body

def allLeftOpen : List Trace → Int
  | [] => 0
  | t :: ts => t.leftOpen + allLeftOpen ts

end

/-- The ledger of a trace or a run from `b` to `b'`: openers less closers are the
rise of the level and what the bodies left open. -/
def Balanced (b b' : Builder) (cs : List Command) (left : Int) : Prop :=
  (cs.countP Command.opens : Int) - cs.countP Command.closes = b'.level - b.level + left

theorem Balanced.append {b b' b'' : Builder} {cs cs' : List Command} {left left' : Int}
    (h : Balanced b b' cs left) (h' : Balanced b' b'' cs' left') :
    Balanced b b'' (cs ++ cs') (left + left') := by
  unfold Balanced at *
  rw [List.countP_append, List.countP_append]
  omega

theorem balanced_command {c : Command} (hc : c.movesLevel = false) (b : Builder) :
    Balanced b (c.run b).after (accepted (.command c (c.run b))) 0 := by
  unfold Balanced
  cases h : c.apply b with
  | error fault =>
    obtain ⟨ha, hf⟩ := Command.run_of_error h
    simp [accepted, ha, hf]
  | ok b' =>
    obtain ⟨ha, hf⟩ := Command.run_of_ok h
    have hl := Command.level_of_apply hc h
    rw [accepted, if_neg (by simp [hf]), ha]
    omega

theorem balanceLaw : RunLaw (fun c => c.movesLevel = false)
    (fun b t => Balanced b t.outcome.after t.accepted t.leftOpen)
    (fun b ts => Balanced b (final b ts) (allAccepted ts) (allLeftOpen ts)) where
  command b c hc := balanced_command hc b
  indented b body tolerant failure h := by
    -- The level is set back, so the rise of the body's level is what is left open.
    unfold Balanced at *
    simp only [Step.run, outcome, accepted, leftOpen, Builder.level_atLevel]
    omega
  nil b := by simp [Balanced, final, allAccepted, allLeftOpen]
  cons b t ts ht hts := ht.append hts

theorem balance {ss : List Step} (h : ∀ c ∈ Step.allCommands ss, c.movesLevel = false)
    (tolerant : Bool) (b : Builder) :
    let ts := Step.runAll tolerant b ss
    Balanced b (final b ts) (allAccepted ts) (allLeftOpen ts) :=
  balanceLaw.runAll tolerant b ss h

end Trace

/-! ## Finishing -/

theorem Builder.ending_isOk_iff (b : Builder) : b.ending.verdict.isOk = true ↔ b.level = 0 := by
  simp only [ending, finish]
  split <;> simp [*, Except.isOk, Except.toBool]

/-- **What finishing catches.** A script that moves the level by blocks alone ends
well just if its openers are its closers and what its bodies left open. So of
the scripts that end well those have closed every block, by number, whose
bodies together left none open. -/
theorem Script.isOk_iff_opens_eq (s : Script)
    (h : ∀ c ∈ Step.allCommands s.steps, c.movesLevel = false) :
    let cs := Trace.allAccepted s.run.traces
    (s.run.ending.verdict.isOk = true ↔
        (cs.countP Command.opens : Int) =
          cs.countP Command.closes + Trace.allLeftOpen s.run.traces) ∧
      (s.run.ending.verdict.isOk = true →
        (cs.countP Command.opens = cs.countP Command.closes ↔
          Trace.allLeftOpen s.run.traces = 0)) := by
  intro cs
  have hb : Trace.Balanced s.start s.run.final cs (Trace.allLeftOpen s.run.traces) :=
    Trace.balance h true s.start
  have hs : s.start.level = 0 := rfl
  have hr : s.run.ending.verdict.isOk = true ↔ s.run.final.level = 0 :=
    Builder.ending_isOk_iff _
  rw [Trace.Balanced, hs] at hb
  rw [hr]
  omega

/-- A block whose second branch is written by a body. The body closes the block,
opens two of its own and closes neither. -/
def driftingScript : Script where
  steps :=
    [.command (.openBlock (.ifThen "x")),
      .indented [.command (.continueBlock .otherwise), .command (.closeBlock .endBlock),
        .command (.openBlock .repeatLoop), .command (.openBlock .doBlock)] false none,
      .command (.closeBlock .endBlock)]

/-- It ends well, with three openers and two closers. -/
theorem isOk_iff_opens_eq_driftingScript :
    (∀ c ∈ Step.allCommands driftingScript.steps, c.movesLevel = false) ∧
      driftingScript.run.ending.verdict.isOk = true ∧
      Trace.allLeftOpen driftingScript.run.traces = 1 ∧
      (Trace.allAccepted driftingScript.run.traces).countP Command.opens ≠
        (Trace.allAccepted driftingScript.run.traces).countP Command.closes := by
  have h : ∀ c ∈ Step.allCommands driftingScript.steps, c.movesLevel = false := by decide
  have hok : driftingScript.run.ending.verdict.isOk = true := by decide
  have hl : Trace.allLeftOpen driftingScript.run.traces = 1 := by decide
  refine ⟨h, hok, hl, fun heq => ?_⟩
  rw [((Script.isOk_iff_opens_eq driftingScript h).2 hok).1 heq] at hl
  cases hl

/-- A block that a body opens and does not close is not caught. -/
theorem finish_misses_open_block :
    ¬ ∀ s : Script, (∀ c ∈ Step.allCommands s.steps, c.movesLevel = false) →
      s.run.ending.verdict.isOk = true →
        (Trace.allAccepted s.run.traces).countP Command.opens =
          (Trace.allAccepted s.run.traces).countP Command.closes := by
  intro h
  have := h ⟨none, none, none, [.indented [.command (.openBlock .doBlock)] false none]⟩
    (by decide) (by decide)
  revert this
  decide

end LuaSource
