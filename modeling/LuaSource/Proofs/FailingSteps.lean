/-
Failing steps. A command fails if it is refused. A body fails at the first of its steps that
does, unless it goes on after failures, or in the end if it states a fault itself. The rules say
which fault it is, and also with which builder the failure was met: that of the refused command,
however deep in bodies it stands, or that of the end of the body.

The runs keep to the rules (`Step.fault?_eq_some_iff`), and a step that failed leaves the builder
of its failure behind, at its own level (`Step.Fails.after`).
-/
import LuaSource.Proofs.InPlace
import LuaSource.Proofs.RunFacts

namespace LuaSource

/-! ## Rules -/

mutual

/-- The step fails with the fault when it runs from `b`, and `m` is the builder at the failure. -/
inductive Step.Fails : Builder → Step → Builder → Fault → Prop
  | refused {b : Builder} {c : Command} {fault : Fault} :
    c.apply b = .error fault → Step.Fails b (.command c) b fault
  | stopped {b m : Builder} {body : List Step} {failure : Option String} {fault : Fault} :
    Step.Stops b.indent body m fault → Step.Fails b (.indented body false failure) m fault
  | stated {b : Builder} {body : List Step} {tolerant : Bool} {reason : String} :
    (tolerant = false → ∀ t ∈ Step.runAll false b.indent body, t.outcome.failed = false) →
    Step.Fails b (.indented body tolerant (some reason))
      (Trace.final b.indent (Step.runAll tolerant b.indent body)) (.badArgument (.stated reason))

/-- The first of the steps that fails does so with the fault, when they run in order from `b`. -/
inductive Step.Stops : Builder → List Step → Builder → Fault → Prop
  | here {b m : Builder} {s : Step} {ss : List Step} {fault : Fault} :
    Step.Fails b s m fault → Step.Stops b (s :: ss) m fault
  | later {b m : Builder} {s : Step} {ss : List Step} {fault : Fault} :
    (s.run b).outcome.failed = false → Step.Stops (s.run b).outcome.after ss m fault →
    Step.Stops b (s :: ss) m fault

end

/-! ## Verdicts -/

theorem Outcome.fault?_eq_some_iff {o : Outcome} {fault : Fault} :
    o.fault? = some fault ↔ o.verdict = .error fault := by
  unfold fault?
  cases o.verdict <;> simp

theorem Outcome.exists_fault? {o : Outcome} (h : o.failed = true) : ∃ fault, o.fault? = some fault := by
  rwa [failed_eq_isSome, Option.isSome_iff_exists] at h

theorem Outcome.failed_of_fault? {o : Outcome} {fault : Fault} (h : o.fault? = some fault) :
    o.failed = true := by
  rw [failed_eq_isSome, h, Option.isSome_some]

theorem Trace.find?_failed_eq_none_iff {ts : List Trace} :
    ts.find? (·.outcome.failed) = none ↔ ∀ t ∈ ts, t.outcome.failed = false := by
  simp [List.find?_eq_none]

theorem Trace.failed_of_find? {ts : List Trace} {t : Trace}
    (h : ts.find? (·.outcome.failed) = some t) : t.outcome.failed = true :=
  List.find?_some (p := fun t : Trace => t.outcome.failed) h

/-- A fault comes out of a body that stops at it, or that goes through and states it. -/
theorem Step.bodyVerdict_eq_error_iff {tolerant : Bool} {failure : Option String}
    {ts : List Trace} {fault : Fault} :
    Step.bodyVerdict tolerant failure ts = .error fault ↔
      (tolerant = false ∧ ∃ t, ts.find? (·.outcome.failed) = some t ∧ t.outcome.fault? = some fault) ∨
        ((tolerant = false → ∀ t ∈ ts, t.outcome.failed = false) ∧
          ∃ reason, failure = some reason ∧ .badArgument (.stated reason) = fault) := by
  rw [← Trace.find?_failed_eq_none_iff]
  cases tolerant with
  | true => cases failure <;> simp [Step.bodyVerdict]
  | false =>
    cases hf : ts.find? (·.outcome.failed) with
    | none => cases failure <;> simp [Step.bodyVerdict, hf]
    | some t => simp [Step.bodyVerdict, hf, Outcome.fault?_eq_some_iff]

theorem Step.fault?_indented_eq_some_iff {b : Builder} {body : List Step} {tolerant : Bool}
    {failure : Option String} {fault : Fault} :
    (Step.run b (.indented body tolerant failure)).outcome.fault? = some fault ↔
      Step.bodyVerdict tolerant failure (Step.runAll tolerant b.indent body) = .error fault :=
  Outcome.fault?_eq_some_iff

/-! ## Runs keep to the rules -/

namespace Step

mutual

theorem Fails.run {b m : Builder} {fault : Fault} : ∀ {s : Step}, Fails b s m fault →
    (s.run b).outcome.fault? = some fault ∧ (s.run b).outcome.after = m.atLevel b.level
  | _, .refused h => ⟨Command.fault?_run_eq_some_iff.2 h, (Command.run_of_error h).1⟩
  | _, .stopped h => by
    obtain ⟨t, level, ht, hf, hfinal⟩ := h.runAll
    refine ⟨fault?_indented_eq_some_iff.2 (bodyVerdict_eq_error_iff.2 (.inl ⟨rfl, t, ht, hf⟩)), ?_⟩
    show (Trace.final b.indent _).atLevel b.level = _
    rw [hfinal]
    rfl
  | _, .stated h => by
    refine ⟨fault?_indented_eq_some_iff.2 (bodyVerdict_eq_error_iff.2 (.inr ⟨?_, _, rfl, rfl⟩)), rfl⟩
    rintro rfl
    exact h rfl

theorem Stops.runAll {b m : Builder} {fault : Fault} : ∀ {ss : List Step}, Stops b ss m fault →
    ∃ t level, (runAll false b ss).find? (·.outcome.failed) = some t ∧
      t.outcome.fault? = some fault ∧ Trace.final b (runAll false b ss) = m.atLevel level
  | _, .here (s := s) h => by
    obtain ⟨hf, ha⟩ := h.run
    have hfail : (s.run b).outcome.failed = true := Outcome.failed_of_fault? hf
    refine ⟨s.run b, b.level, ?_, hf, ?_⟩
    · simp [Step.runAll, hfail]
    · simp [Step.runAll, hfail, Trace.final, ha]
  | _, .later (s := s) hs h => by
    obtain ⟨t, level, ht, hf, hfinal⟩ := h.runAll
    refine ⟨t, level, ?_, hf, ?_⟩
    · simp [Step.runAll, hs, ht]
    · simp [Step.runAll, hs, Trace.final, hfinal]

end

mutual

theorem fails_of_fault? {b : Builder} {fault : Fault} : ∀ s : Step,
    (s.run b).outcome.fault? = some fault → ∃ m, Fails b s m fault
  | .command c, h => ⟨b, .refused (Command.fault?_run_eq_some_iff.1 h)⟩
  | .indented body tolerant failure, h => by
    rcases bodyVerdict_eq_error_iff.1 (fault?_indented_eq_some_iff.1 h) with
      ⟨rfl, t, ht, hf⟩ | ⟨hall, reason, rfl, rfl⟩
    · obtain ⟨m, hm⟩ := stops_of_find? body ht hf
      exact ⟨m, .stopped hm⟩
    · refine ⟨_, .stated fun ht => ?_⟩
      subst ht
      exact hall rfl

theorem stops_of_find? {b : Builder} {t : Trace} {fault : Fault} : ∀ ss : List Step,
    (runAll false b ss).find? (·.outcome.failed) = some t → t.outcome.fault? = some fault →
      ∃ m, Stops b ss m fault
  | [], h, _ => by cases h
  | s :: ss, h, hf => by
    rw [runAll] at h
    cases hs : (s.run b).outcome.failed with
    | true =>
      simp only [hs, Bool.not_false, Bool.and_self, if_true, List.find?_cons_of_pos,
        Option.some.injEq] at h
      subst h
      obtain ⟨m, hm⟩ := fails_of_fault? s hf
      exact ⟨m, .here hm⟩
    | false =>
      rw [hs, Bool.false_and, if_neg Bool.false_ne_true,
        List.find?_cons_of_neg (by rw [hs]; decide)] at h
      obtain ⟨m, hm⟩ := stops_of_find? ss h hf
      exact ⟨m, .later hs hm⟩

end

variable {b m : Builder} {s : Step} {ss : List Step} {fault : Fault}

/-- **A step fails by the rules**, and by nothing else. -/
theorem fault?_eq_some_iff : (s.run b).outcome.fault? = some fault ↔ ∃ m, Fails b s m fault :=
  ⟨fails_of_fault? s, fun ⟨_, h⟩ => h.run.1⟩

theorem Fails.after (h : Fails b s m fault) : (s.run b).outcome.after = m.atLevel b.level := h.run.2

theorem exists_stops_iff :
    (∃ m fault, Stops b ss m fault) ↔ ∃ t ∈ runAll false b ss, t.outcome.failed = true := by
  constructor
  · rintro ⟨m, fault, h⟩
    obtain ⟨t, -, ht, -, -⟩ := h.runAll
    exact ⟨t, List.mem_of_find?_eq_some ht, Trace.failed_of_find? ht⟩
  · rintro ⟨t, ht, hfail⟩
    cases hf : (runAll false b ss).find? (·.outcome.failed) with
    | none =>
      rw [Trace.find?_failed_eq_none_iff.1 hf t ht] at hfail
      cases hfail
    | some t' =>
      obtain ⟨fault, hfault⟩ := Outcome.exists_fault? (Trace.failed_of_find? hf)
      obtain ⟨m, hm⟩ := stops_of_find? ss hf hfault
      exact ⟨m, fault, hm⟩

end Step

end LuaSource
