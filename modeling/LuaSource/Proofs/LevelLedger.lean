/-
The ledger of levels. Beside a run a count is kept that knows nothing of the builder, only
which steps were accepted: one more for what raises the level, one less for what lowers it,
none after a reset, one more on the way into a body, and after the body what it was before,
whatever the body did and however it ended. The count is an integer, so nothing but the
builder's own refusals keeps it from going below zero.

The level is the count at every step, at the top and in bodies (`Trace.ledgerLaw`). The rest
follows: a step outward is refused just where the count is zero, and so is the end of a
build just where it is not.
-/
import LuaSource.Report
import LuaSource.Proofs.OpenerStack
import LuaSource.Proofs.InPlace

namespace LuaSource

/-! ## The count -/

def Turn.change : Turn → Int
  | .stays | .passes => 0
  | .raises => 1
  | .lowers => -1

/-- The count after an accepted command. -/
def Command.counted (n : Int) : Command → Int
  | .reset => 0
  | c => n + c.turn.change

structure Entry where
  trace : Trace
  before : Int
  after : Int

namespace Trace

/-- The count after a step. A refused command leaves it, and so does a body as a whole. -/
def counted (n : Int) : Trace → Int
  | .command c o => if o.failed then n else c.counted n
  | .indented _ _ => n

def allCounted (n : Int) (ts : List Trace) : Int := ts.foldl counted n

mutual

/-- The entries for a step, those for the steps of its body before its own. -/
def ledger (n : Int) : Trace → List Entry
  | .command c o => [⟨.command c o, n, (Trace.command c o).counted n⟩]
  | .indented o body => allLedger (n + 1) body ++ [⟨.indented o body, n, n⟩]

def allLedger (n : Int) : List Trace → List Entry
  | [] => []
  | t :: ts => t.ledger n ++ allLedger (t.counted n) ts

end

end Trace

/-- The builder has the level that the count says, and indents by so many units. -/
structure Builder.Counts (b : Builder) (n : Int) : Prop where
  level : (b.level : Int) = n
  indent : b.currentIndent = String.join (List.replicate n.toNat b.layout.unit)

/-- The builder keeps to the count on both sides of a step, and the step is refused for the
level just if it goes outward from a count of zero. -/
structure Entry.Exact (e : Entry) : Prop where
  before : e.trace.outcome.before.Counts e.before
  after : e.trace.outcome.after.Counts e.after
  refused : ∀ c o, e.trace = .command c o →
    (o.fault? = some .levelIsZero ↔ c.lowers = true ∧ e.before = 0)

/-! ## One step -/

theorem Builder.Counts.of_level {b : Builder} {n : Int} (h : (b.level : Int) = n) : b.Counts n := by
  subst h
  exact ⟨rfl, rfl⟩

theorem Builder.Counts.finish {b : Builder} {n : Int} (h : b.Counts n) :
    b.finish = if n = 0 then .ok b.render else .error (.unclosed n.toNat) := by
  obtain ⟨rfl, -⟩ := h
  unfold Builder.finish
  by_cases hl : b.level = 0
  · rw [if_pos hl, if_pos (by omega)]
  · rw [if_neg hl, if_neg (by omega), Int.toNat_natCast]

theorem Command.level_of_apply_eq_counted {b b' : Builder} {c : Command} (h : c.apply b = .ok b') :
    (b'.level : Int) = c.counted b.level := by
  by_cases hc : c = .reset
  · subst hc
    cases h
    rfl
  · have hm := moves_of_apply hc h
    have hn : c.counted b.level = b.level + c.turn.change := by
      unfold counted
      split
      · exact absurd rfl hc
      · rfl
    rw [hn]
    cases ht : c.turn <;> rw [ht] at hm <;> simp only [Turn.Moves] at hm <;>
      simp only [Turn.change] <;> omega

namespace Trace

theorem counted_command (b : Builder) (c : Command) :
    (Trace.command c (c.run b)).counted b.level = (c.run b).after.level := by
  rw [counted]
  cases h : c.apply b with
  | ok b' =>
    obtain ⟨ha, hf⟩ := Command.run_of_ok h
    rw [if_neg (by simp [hf]), ha, Command.level_of_apply_eq_counted h]
  | error fault =>
    obtain ⟨ha, hf⟩ := Command.run_of_error h
    rw [if_pos hf, ha]

end Trace

theorem Command.fault?_eq_levelIsZero_iff (b : Builder) (c : Command) :
    (c.run b).fault? = some .levelIsZero ↔ c.lowers = true ∧ b.level = 0 := by
  rw [fault?_run_eq_some_iff, apply_eq_error_iff]
  simp

/-! ## Runs -/

namespace Trace

/-- **The level is the count**, at every step of a run and at its end. -/
theorem ledgerLaw : RunLaw (fun _ => True)
    (fun b t => t.counted b.level = t.outcome.after.level ∧ ∀ e ∈ t.ledger b.level, e.Exact)
    (fun b ts => allCounted b.level ts = (final b ts).level ∧
      ∀ e ∈ allLedger b.level ts, e.Exact) where
  command b c _ := by
    have hc := counted_command b c
    refine ⟨hc, fun e he => ?_⟩
    rw [ledger, List.mem_singleton] at he
    subst he
    refine ⟨.of_level ?_, .of_level hc.symm, fun c' o h => ?_⟩
    · show ((c.run b).before.level : Int) = b.level
      rw [c.run_before]
    · cases h
      rw [c.fault?_eq_levelIsZero_iff]
      simp
  indented b body tolerant failure h := by
    refine ⟨rfl, fun e he => ?_⟩
    rcases List.mem_append.1 he with he | he
    · exact h.2 e he
    · rw [List.mem_singleton] at he
      subst he
      exact ⟨.of_level rfl, .of_level rfl, fun c o h => by cases h⟩
  nil b := ⟨rfl, fun e he => by cases he⟩
  cons b t ts ht hts := by
    obtain ⟨hc, he⟩ := ht
    rw [allCounted, List.foldl_cons, ← allCounted, allLedger, hc]
    refine ⟨hts.1, fun e hmem => ?_⟩
    rcases List.mem_append.1 hmem with hmem | hmem
    · exact he e hmem
    · exact hts.2 e hmem

end Trace

/-! ## Scripts -/

/-- **The level is the count.** In a run on a new builder, of whatever steps, the level before
and after each step is the count of the accepted ones, and the indentation is so many of the
current units. A step that goes outward is refused for the level just where the count is zero,
at the top and in bodies. In the end the source is given out just if the count is zero, and
otherwise the fault says how many blocks the count has open. -/
theorem Script.level_eq_counted (s : Script) :
    let n := Trace.allCounted 0 s.run.traces
    (∀ e ∈ Trace.allLedger 0 s.run.traces, e.Exact) ∧
      s.run.final.Counts n ∧
      s.run.ending.verdict =
        if n = 0 then .ok s.run.final.render else .error (.unclosed n.toNat) := by
  intro n
  obtain ⟨hn, he⟩ := Trace.ledgerLaw.runAll true s.start s.steps fun _ _ => trivial
  have hf : s.run.final.Counts n := .of_level hn.symm
  exact ⟨he, hf, hf.finish⟩

/-- A body that closes more than it opened, is refused one step outward, and resets. -/
example : let s : Script :=
      { steps := [.command (.openBlock .doBlock),
          .indented [.command .dedent, .command (.closeBlock .endBlock), .command .dedent,
            .command .newDeeperLine, .command .reset, .command (.openBlock .repeatLoop)] true none,
          .command (.closeBlock .endBlock)] }
    (Trace.allLedger 0 s.run.traces).map (fun e => (e.before, e.after)) =
      [(0, 1), (2, 1), (1, 0), (0, 0), (0, 1), (1, 0), (0, 1), (1, 1), (1, 0)] := by
  decide

end LuaSource
