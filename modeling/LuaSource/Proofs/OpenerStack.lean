/-
Closers line up with openers. A builder keeps no stack of what is open, only one
counter. Next to it runs a machine that has nothing but a stack: a step that
raises the level is put on it, one that lowers the level takes the last one
off and is matched with it.

That the counter does the work of the stack is one invariant, `Stacked`: from
the bottom up, the steps on the stack were called at the levels 0, 1, 2, …, up
to the one below the counter. So where the counter can be lowered there is a
step to match, and the counter, lowered, is the level at which that step was
called. This is the level of the break that a closer makes.
-/
import LuaSource.Report
import LuaSource.Proofs.BuilderFacts
import LuaSource.Proofs.RunFacts

namespace LuaSource

/-! ## Turns -/

/-- What an accepted step does to the level. A branch passes it on: it lowers the
level and raises it again. -/
inductive Turn
  | stays
  | raises
  | lowers
  | passes
  deriving DecidableEq, Repr

/-- The levels before and after a step of this turn. -/
def Turn.Moves : Turn → Nat → Nat → Prop
  | .stays, m, n => n = m
  | .raises, m, n => n = m + 1
  | .lowers, m, n => m = n + 1
  | .passes, m, n => n = m ∧ 0 < m

theorem Turn.Moves.pos {t : Turn} {m n : Nat} (h : t.Moves m n) (ht : t = .lowers ∨ t = .passes) :
    0 < m := by
  rcases ht with rfl | rfl
  · exact Nat.lt_of_lt_of_eq (Nat.succ_pos n) h.symm
  · exact h.2

namespace Command

def turn : Command → Turn
  | .openBlock _ | .indent | .newDeeperLine => .raises
  | .closeBlock _ | .dedent | .newOuterLine => .lowers
  | .continueBlock _ => .passes
  | _ => .stays

/-- What a command writes after a break one level further out, if it makes one. -/
def outerText? : Command → Option String
  | .closeBlock c => some c.text
  | .continueBlock br => some br.text
  | .newOuterLine => some ""
  | _ => none

theorem moves_of_apply {b b' : Builder} {c : Command} (hc : c ≠ .reset) (h : c.apply b = .ok b') :
    c.turn.Moves b.level b'.level := by
  cases c with
  | reset => exact absurd rfl hc
  | indent | newDeeperLine | newLine | newBareLine | setUnit | setNewline | setSink | ask =>
    cases h
    rfl
  | put p =>
    obtain ⟨-, rfl⟩ := Builder.put_eq_ok_iff.1 h
    rfl
  | openBlock o =>
    obtain ⟨-, rfl⟩ := Builder.openBlock_eq_ok_iff.1 h
    rfl
  | dedent =>
    obtain ⟨n, hn, rfl⟩ := Builder.dedent_eq_ok_iff.1 h
    exact hn
  | newOuterLine =>
    obtain ⟨n, hn, rfl⟩ := Builder.newOuterLine_eq_ok_iff.1 h
    exact hn
  | closeBlock cl =>
    obtain ⟨n, hn, rfl⟩ := Builder.closeBlock_eq_ok_iff.1 h
    exact hn
  | continueBlock br =>
    obtain ⟨n, hn, rfl⟩ := Builder.continueBlock_eq_ok_iff.1 h
    exact ⟨hn.symm, by omega⟩

theorem render_of_outerText? {b b' : Builder} {c : Command} {text : String}
    (ht : c.outerText? = some text) (h : c.apply b = .ok b') :
    ∃ n, b.level = n + 1 ∧
      b'.render = b.render ++ (b.layout.newline ++ b.layout.indentation n) ++ text := by
  cases c with
  | closeBlock cl =>
    obtain ⟨n, hn, rfl⟩ := Builder.closeBlock_eq_ok_iff.1 h
    cases ht
    exact ⟨n, hn, by simp⟩
  | continueBlock br =>
    obtain ⟨n, hn, rfl⟩ := Builder.continueBlock_eq_ok_iff.1 h
    cases ht
    exact ⟨n, hn, by simp⟩
  | newOuterLine =>
    obtain ⟨n, hn, rfl⟩ := Builder.newOuterLine_eq_ok_iff.1 h
    cases ht
    exact ⟨n, hn, by simp⟩
  | put | openBlock | indent | dedent | newLine | newDeeperLine | newBareLine | setUnit |
      setNewline | setSink | reset | ask => cases ht

end Command

/-! ## The stack machine -/

namespace Trace

/-- The turn of a trace. A refused command has none, and a body as a whole gives the
level back as it was. -/
def turn : Trace → Turn
  | .command c o => if o.failed then .stays else c.turn
  | .indented _ _ => .stays

/-- The steps on the stack after a run, the last one first, if every step that
lowered the level found one to be matched with. A branch takes the last step off
and opens a block in its place, so what it leaves is the opener at the head of its
chain. -/
def unmatched? (opened : List Trace) : List Trace → Option (List Trace)
  | [] => some opened
  | t :: ts =>
    match t.turn, opened with
    | .stays, opened => unmatched? opened ts
    | .raises, opened => unmatched? (t :: opened) ts
    | .lowers, _ :: outer => unmatched? outer ts
    | .passes, opener :: outer => unmatched? (opener :: outer) ts
    | .lowers, [] | .passes, [] => none

theorem unmatched?_cons (opened : List Trace) (t : Trace) (ts : List Trace) :
    unmatched? opened (t :: ts) = (unmatched? opened [t]).bind (unmatched? · ts) := by
  simp only [unmatched?]
  cases t.turn <;> cases opened <;> rfl

end Trace

/-! ## The counter as a stack -/

/-- From the bottom up, the steps on the stack were called at the levels below the
counter, each at its own. -/
def Stacked (b : Builder) (opened : List Trace) : Prop :=
  opened.map (·.outcome.before.level) = (List.range b.level).reverse

theorem Stacked.nil {b : Builder} (h : b.level = 0) : Stacked b [] := by
  simp [Stacked, h]

/-- At a level above zero there is a step on the stack, called one level further
out. -/
theorem Stacked.eq_cons {b : Builder} {opened : List Trace} {n : Nat} (h : Stacked b opened)
    (hn : b.level = n + 1) :
    ∃ opener outer, opened = opener :: outer ∧ opener.outcome.before.level = n ∧
      Stacked (b.atLevel n) outer := by
  rw [Stacked, hn, List.range_succ, List.reverse_append] at h
  cases opened with
  | nil => simp at h
  | cons opener outer =>
    rw [List.map_cons, List.reverse_singleton, List.singleton_append, List.cons.injEq] at h
    exact ⟨opener, outer, rfl, h.1, h.2⟩

theorem Stacked.congr {b b' : Builder} {opened : List Trace} (h : Stacked b opened)
    (hl : b'.level = b.level) : Stacked b' opened := by
  rw [Stacked, hl]
  exact h

/-- A step that lowers the level has a step on the stack, called at the level that it
goes back to. -/
theorem Stacked.matched {b b' : Builder} {opened : List Trace} {c : Command} (h : Stacked b opened)
    (ha : c.apply b = .ok b') (hc : c ≠ .reset) (ht : c.turn = .lowers ∨ c.turn = .passes) :
    ∃ opener outer, opened = opener :: outer ∧ b.level = opener.outcome.before.level + 1 := by
  have hpos := (Command.moves_of_apply hc ha).pos ht
  obtain ⟨n, hn⟩ := Nat.exists_eq_succ_of_ne_zero (Nat.ne_of_gt hpos)
  obtain ⟨opener, outer, rfl, ho, -⟩ := h.eq_cons hn
  exact ⟨opener, outer, rfl, by rw [ho, hn]⟩

/-- **One step** keeps the counter and the stack together, and finds its match. -/
theorem Stacked.step {b : Builder} {opened : List Trace} {c : Command} (h : Stacked b opened)
    (hc : c ≠ .reset) :
    ∃ opened', Trace.unmatched? opened [.command c (c.run b)] = some opened' ∧
      Stacked (c.run b).after opened' := by
  cases ha : c.apply b with
  | error fault =>
    obtain ⟨hb, hf⟩ := Command.run_of_error ha
    refine ⟨opened, ?_, h.congr (by rw [hb])⟩
    simp [Trace.unmatched?, Trace.turn, hf]
  | ok b' =>
    obtain ⟨hb, hf⟩ := Command.run_of_ok ha
    have ht : (Trace.command c (c.run b)).turn = c.turn := by simp [Trace.turn, hf]
    have hm := Command.moves_of_apply hc ha
    rw [hb]
    cases hturn : c.turn with
    | stays =>
      rw [hturn] at hm
      exact ⟨opened, by simp [Trace.unmatched?, ht, hturn], h.congr hm⟩
    | raises =>
      rw [hturn] at hm
      refine ⟨.command c (c.run b) :: opened, by simp [Trace.unmatched?, ht, hturn], ?_⟩
      have hl : b'.level = b.level + 1 := hm
      rw [Stacked] at h ⊢
      rw [List.map_cons, h, hl, List.range_succ, List.reverse_append, Trace.outcome,
        Command.run_before]
      rfl
    | lowers =>
      rw [hturn] at hm
      obtain ⟨opener, outer, rfl, -, ho⟩ := h.eq_cons hm
      exact ⟨outer, by simp [Trace.unmatched?, ht, hturn], ho⟩
    | passes =>
      -- A branch needs an opener to match and leaves it on the stack for the closer.
      rw [hturn] at hm
      obtain ⟨n, hn⟩ := Nat.exists_eq_succ_of_ne_zero (Nat.ne_of_gt hm.2)
      obtain ⟨opener, outer, rfl, -, -⟩ := h.eq_cons hn
      exact ⟨opener :: outer, by simp [Trace.unmatched?, ht, hturn], h.congr hm.1⟩

theorem Stacked.run : ∀ {cs : List Command} {b : Builder} {opened : List Trace}, Stacked b opened →
    (∀ c ∈ cs, c ≠ .reset) →
    ∃ opened', Trace.unmatched? opened (Step.runAll true b (cs.map .command)) = some opened' ∧
      Stacked (Trace.final b (Step.runAll true b (cs.map .command))) opened'
  | [], _, opened, h, _ => ⟨opened, rfl, h⟩
  | c :: cs, b, opened, h, hc => by
    obtain ⟨opened₁, h₁, hs₁⟩ := h.step (hc c List.mem_cons_self)
    obtain ⟨opened₂, h₂, hs₂⟩ := hs₁.run fun c' hc' => hc c' (List.mem_cons_of_mem c hc')
    rw [Step.runAll_commands_cons, Trace.unmatched?_cons, h₁]
    exact ⟨opened₂, h₂, hs₂⟩

/-- **Closers line up with openers.** In a run of commands without a reset every
step that lowers the level finds a step to be matched with, the last one that
raised the level and is not yet matched. The break of a closer, of a branch or of
a step outward is the current newline and as many of the current units as was the
level at which the matched step was called. And the counter is the stack: the
levels of the steps that are open are all those below it. -/
theorem Script.closers_line_up (unit newline : Option String) (sink : Option Sink)
    (cs : List Command) (h : ∀ c ∈ cs, c ≠ .reset) :
    let script : Script := ⟨unit, newline, sink, cs.map .command⟩
    (∃ opened, Trace.unmatched? [] script.run.traces = some opened ∧
      opened.map (·.outcome.before.level) = (List.range script.run.final.level).reverse) ∧
    ∀ ts c o ts', script.run.traces = ts ++ .command c o :: ts' → o.failed = false →
      (c.turn = .lowers ∨ c.turn = .passes) →
      ∃ opener outer, Trace.unmatched? [] ts = some (opener :: outer) ∧
        ∀ text, c.outerText? = some text →
          o.after.render = o.before.render ++ (o.before.layout.newline ++ String.join
            (List.replicate opener.outcome.before.level o.before.layout.unit)) ++ text := by
  intro script
  have h0 : Stacked script.start [] := .nil rfl
  refine ⟨h0.run h, fun ts c o ts' hts hf hturn => ?_⟩
  obtain ⟨cs₁, cs₂, rfl, rfl, rfl⟩ := Step.runAll_commands_eq_append hts
  obtain ⟨opened, hopened, hs⟩ := h0.run fun c' hc' => h c' (List.mem_append_left _ hc')
  have ha := Command.apply_of_not_failed hf
  obtain ⟨opener, outer, rfl, hl⟩ := hs.matched ha (h c (by simp)) hturn
  refine ⟨opener, outer, hopened, fun text ht => ?_⟩
  obtain ⟨n, hn, hr⟩ := Command.render_of_outerText? ht ha
  have hk : n = opener.outcome.before.level := Nat.succ.inj (hn.symm.trans hl)
  rw [hr, hk, Command.run_before]
  rfl

/-- A branch in a function, with a step that is refused and another unit half way. -/
def steppedCommands : List Command :=
  [.openBlock (.function (some "f") []), .newLine, .openBlock (.ifThen "x"), .newDeeperLine,
    .put (.verbatim "y"), .put (.label "1"), .setUnit "\t", .newOuterLine,
    .continueBlock .otherwise]

/-- The closer after them is matched with the `if`, which was called at level 1, and
stands one of the new units in. -/
theorem closers_line_up_steppedCommands :
    (∀ c ∈ steppedCommands ++ [.closeBlock .endBlock], c ≠ .reset) ∧
    let ts := Step.runAll true {} (steppedCommands.map .command)
    let o := Command.run (Trace.final {} ts) (.closeBlock .endBlock)
    ∃ opener outer, Trace.unmatched? [] ts = some (opener :: outer) ∧
      opener.outcome.before.level = 1 ∧ o.after.render = o.before.render ++ ("\n" ++ "\t") ++ "end" := by
  have h : ∀ c ∈ steppedCommands ++ [.closeBlock .endBlock], c ≠ .reset := by decide
  refine ⟨h, ?_⟩
  intro ts o
  obtain ⟨opener, outer, ho, hr⟩ := (Script.closers_line_up none none none _ h).2
    ts (.closeBlock .endBlock) o [] rfl rfl (.inl rfl)
  have hl : opener.outcome.before.level = 1 := by
    have hs : ((Trace.unmatched? [] ts).getD []).head?.map (·.outcome.before.level) = some 1 := by
      decide
    rw [ho] at hs
    exact Option.some.inj hs
  refine ⟨opener, outer, ho, hl, ?_⟩
  rw [hr "end" rfl, hl]
  rfl

end LuaSource
