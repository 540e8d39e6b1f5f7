/-
Commands in place. Done effect by effect, a command comes to what its run makes
of it, and where it is refused nothing of it is left behind. The reason is the
order of the effects, which is the same for all commands: what can be refused
comes before the first change (`guarded_effects`).
-/
import LuaSource.Effect
import LuaSource.Script

namespace LuaSource

def Outcome.fault? (o : Outcome) : Option Fault :=
  match o.verdict with
  | .ok _ => none
  | .error fault => some fault

theorem Outcome.failed_eq_isSome (o : Outcome) : o.failed = o.fault?.isSome := by
  unfold failed fault?
  cases o.verdict <;> rfl

theorem Outcome.fault?_eq_none {o : Outcome} (h : o.failed = false) : o.fault? = none := by
  rwa [failed_eq_isSome, Option.isSome_eq_false_iff, Option.isNone_iff_eq_none] at h

theorem Command.fault?_of_ok {b b' : Builder} {c : Command} (h : c.apply b = .ok b') :
    (c.run b).fault? = none := by
  simp only [run, h, Outcome.fault?]

theorem Command.fault?_of_error {b : Builder} {c : Command} {fault : Fault}
    (h : c.apply b = .error fault) : (c.run b).fault? = some fault := by
  simp only [run, h, Outcome.fault?]

theorem Command.fault?_run_eq_some_iff {b : Builder} {c : Command} {fault : Fault} :
    (c.run b).fault? = some fault ↔ c.apply b = .error fault := by
  cases h : c.apply b with
  | ok b' => simp [fault?_of_ok h]
  | error fault' => simp [fault?_of_error h]

/-! ## Effects -/

namespace Effect

variable {b b' : Builder} {e : Effect} {es : List Effect} {fault : Fault}

theorem eq_of_apply_check {fault? : Option ArgumentFault}
    (h : (Effect.check fault?).apply b = .ok b') : b' = b := by
  cases fault? <;> cases h
  rfl

theorem apply_of_not_refusable (h : e.refusable = false) (b : Builder) : ∃ b', e.apply b = .ok b' := by
  cases e with
  | check | lower => cases h
  | raise | write | breakLine | breakBare | setUnit | setNewline | setSink | clear => exact ⟨_, rfl⟩

theorem perform_of_not_refusable : ∀ {es : List Effect}, es.all (!·.refusable) = true →
    ∀ b, (perform b es).2 = none
  | [], _, _ => rfl
  | e :: es, h, b => by
    simp only [List.all_cons, Bool.and_eq_true, Bool.not_eq_true'] at h
    obtain ⟨b', hb⟩ := apply_of_not_refusable h.1 b
    rw [perform, hb]
    exact perform_of_not_refusable h.2 b'

theorem perform_cons_of_ok (h : e.apply b = .ok b') : perform b (e :: es) = perform b' es := by
  rw [perform, h]

theorem perform_cons_of_error (h : e.apply b = .error fault) : perform b (e :: es) = (b, some fault) := by
  rw [perform, h]

/-- **Nothing is left behind** by effects of which the refusable ones come first. -/
theorem eq_of_perform_guarded : ∀ {es : List Effect} {b b' : Builder}, guarded es = true →
    perform b es = (b', some fault) → b' = b
  | [], _, _, _, hp => by cases hp
  | e :: es, b, b', hg, hp => by
    cases ha : e.apply b with
    | error fault' =>
      rw [perform_cons_of_error ha] at hp
      cases hp
      rfl
    | ok b₁ =>
      rw [perform_cons_of_ok ha] at hp
      cases e with
      | check fault? =>
        have hes : guarded es = true := hg
        rw [← eq_of_apply_check ha]
        exact eq_of_perform_guarded hes hp
      | lower | raise | write | breakLine | breakBare | setUnit | setNewline | setSink | clear =>
        -- The builder has changed; that what follows were refused is ruled out.
        have hes : es.all (!·.refusable) = true := hg
        have hn := perform_of_not_refusable hes b₁
        rw [hp] at hn
        cases hn

theorem perform_of_foldlM_ok : ∀ {es : List Effect} {b : Builder},
    es.foldlM Effect.apply b = .ok b' → perform b es = (b', none)
  | [], _, h => by
    cases h
    rfl
  | e :: es, b, h => by
    rw [List.foldlM_cons] at h
    cases ha : e.apply b with
    | error fault =>
      rw [ha] at h
      cases h
    | ok b₁ =>
      rw [ha] at h
      rw [perform_cons_of_ok ha]
      exact perform_of_foldlM_ok h

theorem perform_of_foldlM_error : ∀ {es : List Effect} {b : Builder},
    es.foldlM Effect.apply b = .error fault → (perform b es).2 = some fault
  | [], _, h => by cases h
  | e :: es, b, h => by
    rw [List.foldlM_cons] at h
    cases ha : e.apply b with
    | error fault' =>
      rw [ha] at h
      cases h
      rw [perform_cons_of_error ha]
    | ok b₁ =>
      rw [ha] at h
      rw [perform_cons_of_ok ha]
      exact perform_of_foldlM_error h

end Effect

/-! ## Commands -/

namespace Command

theorem guarded_effects (c : Command) : Effect.guarded c.effects = true := by
  cases c <;> rfl

/-- All effects or none of them: this is the command. -/
theorem foldlM_effects (b : Builder) (c : Command) : c.effects.foldlM Effect.apply b = c.apply b := by
  cases c with
  | put p =>
    show Builder.unlessFault p.fault? b >>= _ = Builder.unlessFault p.fault? _
    cases p.fault? <;> rfl
  | openBlock o =>
    show Builder.unlessFault o.fault? b >>= _ = Builder.unlessFault o.fault? _
    cases o.fault? <;> rfl
  | continueBlock br =>
    show b.dedent >>= _ = (b.dedent.map _).map _
    cases b.dedent <;> rfl
  | closeBlock cl =>
    show b.dedent >>= _ = (b.dedent.map _).map _
    cases b.dedent <;> rfl
  | newOuterLine =>
    show b.dedent >>= _ = b.dedent.map _
    cases b.dedent <;> rfl
  | dedent =>
    show b.dedent >>= _ = b.dedent
    cases b.dedent <;> rfl
  | indent | newLine | newDeeperLine | newBareLine | setUnit | setNewline | setSink | reset | ask => rfl

/-- A command done in place comes to what its run says, refused or not. -/
theorem perform_effects (b : Builder) (c : Command) :
    Effect.perform b c.effects = ((c.run b).after, (c.run b).fault?) := by
  have hf := c.foldlM_effects b
  cases h : c.apply b with
  | ok b' =>
    rw [h] at hf
    rw [Effect.perform_of_foldlM_ok hf]
    simp only [run, h, Outcome.fault?]
  | error fault =>
    rw [h] at hf
    have hp := Effect.perform_of_foldlM_error hf
    have hb := Effect.eq_of_perform_guarded c.guarded_effects (Prod.ext rfl hp)
    simp only [run, h, Outcome.fault?]
    exact Prod.ext hb hp

end Command

end LuaSource
