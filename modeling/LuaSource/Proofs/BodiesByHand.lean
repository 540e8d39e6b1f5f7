/-
Bodies by hand. A body takes the level that it found and puts it back in the end. To do it by
hand is to go one level in, do its steps, and go one level out: a level that is counted takes
the place of one that was kept.

If the body fails in nothing and comes back to the level at which it started, the two are the
same, whatever happened to the level on the way (`AllByHand.runAll`). Bodies in the body may be
done by hand as well or be left as they are. If the body stops, nothing takes the place of the
kept level: from whatever depth the failure comes, the body puts the level back
(`Step.Fails.after`).
-/
import LuaSource.Proofs.FailingSteps

namespace LuaSource

/-! ## By hand -/

namespace Step

/-- The steps of a body as steps among others, between a step inward and a step outward. -/
def byHand (body : List Step) : List Step := .command .indent :: (body ++ [.command .dedent])

/-- The body is through without a fault, and at the level at which it started. -/
structure Even (b : Builder) (body : List Step) (tolerant : Bool) (failure : Option String) :
    Prop where
  returns : (run b (.indented body tolerant failure)).outcome.failed = false
  level : (Trace.final b.indent (runAll tolerant b.indent body)).level = b.level + 1

mutual

/-- The steps `ss` are the step `s` as it runs from `b`, or it is an even body and they are that
body by hand. -/
inductive ByHand : Builder → Step → List Step → Prop
  | same {b : Builder} {s : Step} : ByHand b s [s]
  | opened {b : Builder} {body body' : List Step} {tolerant : Bool} {failure : Option String} :
    Even b body tolerant failure → AllByHand b.indent body body' →
    ByHand b (.indented body tolerant failure) (byHand body')

/-- Steps of which any even bodies are by hand, and any even bodies in those. -/
inductive AllByHand : Builder → List Step → List Step → Prop
  | nil {b : Builder} : AllByHand b [] []
  | cons {b : Builder} {s : Step} {ss ss' rest' : List Step} :
    ByHand b s ss' → AllByHand (s.run b).outcome.after ss rest' →
    AllByHand b (s :: ss) (ss' ++ rest')

end

/-! ## Steps between steps -/

theorem allByHand_self (b : Builder) : ∀ ss : List Step, AllByHand b ss ss
  | [] => .nil
  | _ :: ss => .cons .same (allByHand_self _ ss)

theorem runAll_byHand (b : Builder) (body : List Step) :
    let ts := runAll true b.indent body
    runAll true b (byHand body) =
      .command .indent (Command.indent.run b) ::
        (ts ++ [.command .dedent (Command.dedent.run (Trace.final b.indent ts))]) := by
  intro ts
  have hd (b : Builder) :
      runAll true b [.command .dedent] = [.command .dedent (Command.dedent.run b)] := by
    rw [runAll_cons]
    rfl
  rw [byHand, runAll_cons, runAll_append, hd]
  rfl

end Step

/-- Steps of which none fails do the same whether or not they would go on after a failure. -/
theorem Step.runAll_eq_of_not_failed {b : Builder} : ∀ {ss : List Step},
    (∀ t ∈ runAll false b ss, t.outcome.failed = false) → runAll true b ss = runAll false b ss
  | [], _ => rfl
  | s :: ss, h => by
    have hs : (s.run b).outcome.failed = false := h _ (by
      rw [runAll]
      split <;> exact List.mem_cons_self)
    rw [runAll, hs, Bool.false_and, if_neg Bool.false_ne_true] at h
    rw [runAll_cons, runAll, hs, Bool.false_and, if_neg Bool.false_ne_true,
      runAll_eq_of_not_failed fun t ht => h t (List.mem_cons_of_mem _ ht)]

theorem Step.runAll_of_returns {b : Builder} {body : List Step} {tolerant : Bool}
    {failure : Option String}
    (h : (run b (.indented body tolerant failure)).outcome.failed = false) :
    runAll true b.indent body = runAll tolerant b.indent body := by
  cases tolerant with
  | true => rfl
  | false =>
    refine runAll_eq_of_not_failed fun t ht => ?_
    cases hfail : t.outcome.failed with
    | false => rfl
    | true =>
      obtain ⟨m, fault, hm⟩ := exists_stops_iff.2 ⟨t, ht, hfail⟩
      have hs : Fails b (.indented body false failure) m fault := .stopped hm
      rw [Outcome.failed_of_fault? hs.run.1] at h
      cases h

/-! ## Going out again -/

/-- Going out is going back to a level that was kept, just if it starts one level deeper. -/
theorem Command.run_dedent_iff {m : Builder} {level : Nat} :
    (Command.dedent.run m).failed = false ∧ (Command.dedent.run m).after = m.atLevel level ↔
      m.level = level + 1 := by
  constructor
  · rintro ⟨hf, ha⟩
    obtain ⟨n, hn, hm⟩ := Builder.dedent_eq_ok_iff.1 (apply_of_not_failed hf)
    rw [ha] at hm
    have hl : level = n := congrArg Builder.level hm
    rw [hn, hl]
  · intro h
    have hd : Command.dedent.apply m = .ok (m.atLevel level) := Builder.dedent_eq_ok_iff.2 ⟨_, h, rfl⟩
    exact ⟨(run_of_ok hd).2, (run_of_ok hd).1⟩

theorem Command.log_run_of_not_failed {b : Builder} {c : Command} (h : (c.run b).failed = false) :
    (c.run b).log = ((c.event? b).map (·.kept b.sink)).getD "" := by
  obtain ⟨b', hb⟩ : ∃ b', c.apply b = .ok b' := ⟨_, apply_of_not_failed h⟩
  simp only [run, hb]

namespace Step

/-- A body by hand comes to what its steps come to, and then to what going out comes to. -/
theorem final_byHand (b : Builder) (body : List Step) :
    let m := Trace.final b.indent (runAll true b.indent body)
    Trace.final b (runAll true b (byHand body)) = (Command.dedent.run m).after := by
  intro m
  rw [runAll_byHand, Trace.final, Trace.final_append]
  rfl

theorem logs_byHand {b : Builder} {body : List Step}
    (h : (Trace.final b.indent (runAll true b.indent body)).level = b.level + 1) :
    Trace.logs (runAll true b (byHand body)) = Trace.logs (runAll true b.indent body) := by
  have hi : (Command.indent.run b).log = "" := rfl
  have hd := Command.log_run_of_not_failed (Command.run_dedent_iff.2 h).1
  rw [runAll_byHand, Trace.logs_cons, Trace.logs_append, Trace.logs_cons]
  simp [Trace.logs, Trace.outcome, hi, hd, Command.event?]

/-! ## Bodies by hand in steps -/

mutual

theorem ByHand.run {b : Builder} : ∀ {s : Step} {ss : List Step}, ByHand b s ss →
    Trace.final b (runAll true b ss) = (s.run b).outcome.after ∧
      Trace.logs (runAll true b ss) = (s.run b).outcome.log
  | _, _, .same => by simp [runAll, Trace.final, Trace.logs]
  | _, _, .opened he h => by
    obtain ⟨hf, hl⟩ := h.runAll
    have hr := runAll_of_returns he.returns
    have hm := he.level
    rw [← hr, ← hf] at hm
    refine ⟨?_, ?_⟩
    · rw [final_byHand, (Command.run_dedent_iff.2 hm).2, hf, hr]
      rfl
    · rw [logs_byHand hm, hl, hr]
      rfl

/-- **Even bodies may be done by hand**, any of them, and the steps come to the same. -/
theorem AllByHand.runAll {b : Builder} : ∀ {ss ss' : List Step}, AllByHand b ss ss' →
    Trace.final b (runAll true b ss') = Trace.final b (runAll true b ss) ∧
      Trace.logs (runAll true b ss') = Trace.logs (runAll true b ss)
  | _, _, .nil => ⟨rfl, rfl⟩
  | _, _, .cons hs hss => by
    obtain ⟨hf, hl⟩ := hs.run
    obtain ⟨hfs, hls⟩ := hss.runAll
    rw [runAll_append, runAll_cons, Trace.final_append, Trace.logs_append, Trace.logs_cons, hf, hl,
      hfs, hls]
    exact ⟨rfl, rfl⟩

end

/-- **A body is its steps by hand**, if it fails in nothing and just if it is back at the level at
which it started: then the step outward is accepted and leaves the same builder, and the journal
hears the same. The bodies in it may be by hand or not. A body that stops has the fault of the
step at which it stops, and leaves the builder of that moment at the level that the body found. -/
theorem indented_eq_byHand (b : Builder) (body : List Step) (failure : Option String) :
    (∀ (tolerant : Bool) (body' : List Step),
      let o := (run b (.indented body tolerant failure)).outcome
      let m := Trace.final b.indent (runAll tolerant b.indent body)
      let hand := runAll true b (byHand body')
      o.failed = false → AllByHand b.indent body body' →
        (∃ ts d, hand = ts ++ [.command .dedent d] ∧
          (d.failed = false ∧ Trace.final b hand = o.after ↔ m.level = b.level + 1)) ∧
        (m.level = b.level + 1 → Trace.logs hand = o.log)) ∧
      (∀ (m : Builder) (fault : Fault), Stops b.indent body m fault →
        let o := (run b (.indented body false failure)).outcome
        o.verdict = .error fault ∧ o.after = m.atLevel b.level) ∧
      ((∃ m fault, Stops b.indent body m fault) ↔
        ∃ t ∈ runAll false b.indent body, t.outcome.failed = true) := by
  refine ⟨fun tolerant body' => ?_, fun m fault h => ?_, exists_stops_iff⟩
  · intro o m hand ho h
    obtain ⟨hf, hl⟩ := h.runAll
    rw [runAll_of_returns ho] at hf hl
    refine ⟨⟨.command .indent _ :: runAll true b.indent body', _, runAll_byHand b body', ?_⟩,
      fun hm => ?_⟩
    · rw [final_byHand, hf]
      exact Command.run_dedent_iff
    · rw [logs_byHand (by rw [hf, hm]), hl]
      rfl
  · intro o
    have hs : Fails b (.indented body false failure) m fault := .stopped h
    exact ⟨Outcome.fault?_eq_some_iff.1 hs.run.1, hs.after⟩

/-- A block with a setter, refused commands, and a body with a refused command of its own. -/
def evenBody : List Step :=
  [.command .newLine, .command (.setUnit "\t"), .command (.openBlock .doBlock),
    .command (.put (.goto "end")),
    .indented [.command .newDeeperLine, .command (.put (.label "a b")), .command .dedent] true none,
    .command (.closeBlock .endBlock)]

def evenBodyByHand : List Step :=
  [.command .newLine, .command (.setUnit "\t"), .command (.openBlock .doBlock),
    .command (.put (.goto "end")),
    .command .indent, .command .newDeeperLine, .command (.put (.label "a b")), .command .dedent,
    .command .dedent,
    .command (.closeBlock .endBlock)]

/-- A body that is stopped two levels further in. -/
def stoppedBody : List Step :=
  [.command (.setUnit "\t"),
    .indented [.command .newDeeperLine, .command (.put (.field "end")), .command .reset] false none,
    .command .reset]

theorem indented_eq_byHand_evenBody :
    let b : Builder := { level := 1, sink := some .keeping }
    let o := (run b (.indented evenBody true none)).outcome
    let hand := runAll true b (byHand evenBodyByHand)
    let m := (b.indent.setUnit "\t").indent.newDeeperLine
    let fault := Fault.badArgument (.notAName .fieldName "end")
    let o' := (run b (.indented stoppedBody false none)).outcome
    (o.failed = false ∧ AllByHand b.indent evenBody evenBodyByHand ∧
      Trace.final b hand = o.after ∧ Trace.logs hand = o.log) ∧
    (Stops b.indent stoppedBody m fault ∧ o'.verdict = .error fault ∧ o'.after = m.atLevel 1) := by
  intro b o hand m fault o'
  constructor
  · have ho : o.failed = false := by decide +kernel
    have hm : (Trace.final b.indent (runAll true b.indent evenBody)).level = b.level + 1 := by
      decide +kernel
    have h : AllByHand b.indent evenBody evenBodyByHand :=
      .cons .same (.cons .same (.cons .same (.cons .same (.cons
        (.opened ⟨by decide +kernel, by decide +kernel⟩ (allByHand_self _ _)) (.cons .same .nil)))))
    obtain ⟨⟨ts, d, -, hd⟩, hl⟩ := (indented_eq_byHand b evenBody none).1 true evenBodyByHand ho h
    exact ⟨ho, h, (hd.2 hm).2, hl hm⟩
  · have h : Stops b.indent stoppedBody m fault :=
      .later rfl (.here (.stopped (.later rfl (.here (.refused rfl)))))
    exact ⟨h, (indented_eq_byHand b stoppedBody none).2.1 m fault h⟩

end Step

end LuaSource
