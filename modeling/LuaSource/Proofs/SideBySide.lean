/-
Two builders side by side. The same steps run on both, and the builders differ in
what they held before, in how deep they stand and in their layouts. The steps then
do the same on both sides, up to those differences.

A `Pairing` says what the differences are. One effect keeps it (`Builders.effect`),
so a command does, which is its effects in order, and by induction a whole run does,
bodies included (`Builders.runAll`). Only one thing can drive the two sides apart:
the level can be zero on one side and not on the other. So if one side stands
deeper, no step of the other may be refused for its level.
-/
import LuaSource.Proofs.BuilderFacts
import LuaSource.Proofs.InPlace
import LuaSource.Proofs.RunFacts
import Mathlib.Data.List.Forall2

namespace LuaSource

variable {R S : Builder → Builder → Prop}

/-! ## Runs that are alike -/

/-- The builders before and after are related, and so is the verdict: both are
accepted, or both are refused for the same fault. A reply may differ, since a query
may ask for what the builders differ in. -/
structure Outcome.Alike (R : Builder → Builder → Prop) (o o' : Outcome) : Prop where
  before : R o.before o'.before
  after : R o.after o'.after
  fault? : o'.fault? = o.fault?

theorem Outcome.Alike.mono {o o' : Outcome} (hRS : ∀ b b', R b b' → S b b') (h : o.Alike R o') :
    o.Alike S o' :=
  ⟨hRS _ _ h.before, hRS _ _ h.after, h.fault?⟩

theorem Outcome.Alike.failed {o o' : Outcome} (h : o.Alike R o') : o'.failed = o.failed := by
  rw [o'.failed_eq_isSome, o.failed_eq_isSome, h.fault?]

namespace Trace

mutual

/-- The same step with outcomes that are alike, and alike in its body. -/
inductive Alike (R : Builder → Builder → Prop) : Trace → Trace → Prop
  | command {c : Command} {o o' : Outcome} :
    o.Alike R o' → Alike R (.command c o) (.command c o')
  | indented {o o' : Outcome} {body body' : List Trace} :
    o.Alike R o' → AllAlike R body body' → Alike R (.indented o body) (.indented o' body')

inductive AllAlike (R : Builder → Builder → Prop) : List Trace → List Trace → Prop
  | nil : AllAlike R [] []
  | cons {t t' : Trace} {ts ts' : List Trace} :
    Alike R t t' → AllAlike R ts ts' → AllAlike R (t :: ts) (t' :: ts')

end

variable {t t' : Trace} {ts ts' : List Trace}

theorem Alike.outcome : Alike R t t' → t.outcome.Alike R t'.outcome
  | .command h => h
  | .indented h _ => h

mutual

theorem Alike.mono (hRS : ∀ b b', R b b' → S b b') : ∀ {t t' : Trace}, Alike R t t' → Alike S t t'
  | _, _, .command h => .command (h.mono hRS)
  | _, _, .indented h hs => .indented (h.mono hRS) (hs.mono hRS)

theorem AllAlike.mono (hRS : ∀ b b', R b b' → S b b') :
    ∀ {ts ts' : List Trace}, AllAlike R ts ts' → AllAlike S ts ts'
  | _, _, .nil => .nil
  | _, _, .cons h hs => .cons (h.mono hRS) (hs.mono hRS)

end

theorem AllAlike.final : ∀ {ts ts' : List Trace} {b b' : Builder}, AllAlike R ts ts' → R b b' →
    R (final b ts) (final b' ts')
  | _, _, _, _, .nil, hb => hb
  | _, _, _, _, .cons h hs, _ => hs.final h.outcome.after

/-- The first step that failed is the same one on both sides. -/
theorem AllAlike.find?_failed : ∀ {ts ts' : List Trace}, AllAlike R ts ts' →
    (ts.find? (·.outcome.failed) = none ∧ ts'.find? (·.outcome.failed) = none) ∨
      ∃ t t', ts.find? (·.outcome.failed) = some t ∧ ts'.find? (·.outcome.failed) = some t' ∧
        Alike R t t'
  | _, _, .nil => .inl ⟨rfl, rfl⟩
  | t :: ts, t' :: ts', .cons h hs => by
    have hf := h.outcome.failed
    cases hft : t.outcome.failed with
    | true =>
      rw [hft] at hf
      exact .inr ⟨t, t', List.find?_cons_of_pos hft, List.find?_cons_of_pos hf, h⟩
    | false =>
      rw [hft] at hf
      rw [List.find?_cons_of_neg (by rw [hft]; decide), List.find?_cons_of_neg (by rw [hf]; decide)]
      exact hs.find?_failed

/-- Bodies that did alike fail with the same fault, or neither does. -/
theorem AllAlike.fault?_eq (h : AllAlike R ts ts') {tolerant : Bool} {failure : Option String}
    {o o' : Outcome} (ho : o.verdict = Step.bodyVerdict tolerant failure ts)
    (ho' : o'.verdict = Step.bodyVerdict tolerant failure ts') : o'.fault? = o.fault? := by
  unfold Outcome.fault?
  rw [ho, ho']
  cases tolerant with
  | true => rfl
  | false =>
    obtain ⟨hn, hn'⟩ | ⟨t, t', ht, ht', ha⟩ := h.find?_failed
    · simp only [Step.bodyVerdict, hn, hn', Bool.false_eq_true, if_false]
    · have hf := ha.outcome.fault?
      unfold Outcome.fault? at hf
      simpa only [Step.bodyVerdict, ht, ht', Bool.false_eq_true, if_false] using hf

mutual

/-- The faults of the steps of a trace, those in its bodies among them. -/
def faults : Trace → List Fault
  | .command _ o => o.fault?.toList
  | .indented o body => allFaults body ++ o.fault?.toList

def allFaults : List Trace → List Fault
  | [] => []
  | t :: ts => t.faults ++ allFaults ts

end

end Trace

/-! ## Pairings -/

/-- Whether a command sets the layout, with a setter or back to that of a new builder. -/
def Command.setsLayout : Command → Bool
  | .setUnit _ | .setNewline _ | .reset => true
  | _ => false

/-- How two builders differ: by the fragments that each held at the start, by how much
deeper the second one stands, and by which layouts go together. -/
structure Pairing where
  start : List Fragment
  start' : List Fragment
  rise : Nat
  layouts : Layout → Layout → Prop

namespace Pairing

/-- Fragments that go together: the same text, or breaks of the same kind in layouts that
go together, the second one as much deeper as its builder. -/
inductive Fragments (p : Pairing) : Fragment → Fragment → Prop
  | text (s : String) : p.Fragments (.text s) (.text s)
  | line {l l' : Layout} (depth : Nat) : p.layouts l l' →
    p.Fragments (.line l depth) (.line l' (depth + p.rise))
  | bareLine {l l' : Layout} : p.layouts l l' → p.Fragments (.bareLine l) (.bareLine l')

/-- Builders that go together: what was added on one side goes with what was added on
the other, one by one. -/
structure Builders (p : Pairing) (b b' : Builder) : Prop where
  level : b'.level = b.level + p.rise
  layout : p.layouts b.layout b'.layout
  fragments : ∃ added added', b.fragments = p.start ++ added ∧ b'.fragments = p.start' ++ added' ∧
    List.Forall₂ p.Fragments added added'

/-- Two tries: both give builders that go together, or both the same fault. -/
inductive Results (p : Pairing) : Except Fault Builder → Except Fault Builder → Prop
  | ok {b b' : Builder} : p.Builders b b' → p.Results (.ok b) (.ok b')
  | error (fault : Fault) : p.Results (.error fault) (.error fault)

/-- Whether an effect may happen on both sides: a setter has to keep the layouts together,
and what was held at the start has to stay. -/
def Admits (p : Pairing) : Effect → Prop
  | .setUnit unit => ∀ l l', p.layouts l l' → p.layouts { l with unit } { l' with unit }
  | .setNewline newline => ∀ l l', p.layouts l l' → p.layouts { l with newline } { l' with newline }
  | .clear => False
  | _ => True

def AdmitsAll (p : Pairing) (cs : List Command) : Prop := ∀ c ∈ cs, ∀ e ∈ c.effects, p.Admits e

variable {p : Pairing} {b b' : Builder}

/-- On one layout nothing but a reset comes between the two sides. -/
theorem admitsAll_of_ne_reset {start start' : List Fragment} {rise : Nat} {cs : List Command}
    (h : ∀ c ∈ cs, c ≠ .reset) : (Pairing.mk start start' rise Eq).AdmitsAll cs := by
  intro c hc e he
  have hr := h c hc
  cases c with
  | reset => exact absurd rfl hr
  | put | openBlock | continueBlock | closeBlock | indent | dedent | newLine | newDeeperLine |
      newOuterLine | newBareLine | setUnit | setNewline | setSink | ask =>
    revert e
    simp [Command.effects, Admits]

/-- Without setters any two layouts stay together. -/
theorem admitsAll_of_not_setsLayout {cs : List Command} (h : ∀ c ∈ cs, c.setsLayout = false) :
    p.AdmitsAll cs := by
  intro c hc e he
  have hs := h c hc
  cases c with
  | setUnit | setNewline | reset => cases hs
  | put | openBlock | continueBlock | closeBlock | indent | dedent | newLine | newDeeperLine |
      newOuterLine | newBareLine | setSink | ask =>
    revert e
    simp [Command.effects, Admits]

theorem Results.ok_or_error {r r' : Except Fault Builder} (h : p.Results r r') :
    (∃ b b', r = .ok b ∧ r' = .ok b' ∧ p.Builders b b') ∨
      ∃ fault, r = .error fault ∧ r' = .error fault := by
  cases h with
  | ok h => exact .inl ⟨_, _, rfl, rfl, h⟩
  | error fault => exact .inr ⟨fault, rfl, rfl⟩

namespace Builders

/-- Builders that held as much at the start hold as much later on. -/
theorem count (h : p.Builders b b') (hs : p.start'.length = p.start.length) : b'.count = b.count := by
  obtain ⟨added, added', hb, hb', hp⟩ := h.fragments
  rw [b'.count_eq_length, b.count_eq_length, hb, hb', List.length_append, List.length_append, hs,
    hp.length_eq]

theorem emit {f f' : Fragment} (h : p.Builders b b') (hf : p.Fragments f f') :
    p.Builders (b.emit f) (b'.emit f') where
  level := h.level
  layout := h.layout
  fragments := by
    obtain ⟨added, added', hb, hb', hp⟩ := h.fragments
    refine ⟨added ++ [f], added' ++ [f'], ?_, ?_, List.rel_append hp (.cons hf .nil)⟩
    · rw [Builder.fragments_emit, hb, List.append_assoc]
    · rw [Builder.fragments_emit, hb', List.append_assoc]

theorem atLevel (h : p.Builders b b') (n : Nat) : p.Builders (b.atLevel n) (b'.atLevel (n + p.rise)) :=
  ⟨rfl, h.layout, h.fragments⟩

theorem indent (h : p.Builders b b') : p.Builders b.indent b'.indent where
  level := by
    have := h.level
    show b'.level + 1 = b.level + 1 + p.rise
    omega
  layout := h.layout
  fragments := h.fragments

theorem newLine (h : p.Builders b b') : p.Builders b.newLine b'.newLine := by
  rw [Builder.newLine, Builder.newLine, h.level]
  exact h.emit (.line b.level h.layout)

/-- At level zero the deeper builder could go on, so this must not be asked of it. -/
theorem dedent (h : p.Builders b b') (hz : 0 < p.rise → b.dedent ≠ .error .levelIsZero) :
    p.Results b.dedent b'.dedent := by
  have hl := h.level
  cases hb : b.level with
  | zero =>
    have hd : b.dedent = .error .levelIsZero := by rw [Builder.dedent, hb]
    have hr : p.rise = 0 := Nat.eq_zero_of_not_pos fun hr => hz hr hd
    have hd' : b'.dedent = .error .levelIsZero := by rw [Builder.dedent, hl, hb, hr]
    rw [hd, hd']
    exact .error .levelIsZero
  | succ n =>
    have hb' : b'.level = n + p.rise + 1 := by omega
    rw [Builder.dedent_eq_ok_iff.2 ⟨n, hb, rfl⟩, Builder.dedent_eq_ok_iff.2 ⟨_, hb', rfl⟩]
    exact .ok (h.atLevel n)

/-- **One effect** keeps builders together. -/
theorem effect (h : p.Builders b b') {e : Effect} (he : p.Admits e)
    (hz : 0 < p.rise → e.apply b ≠ .error .levelIsZero) : p.Results (e.apply b) (e.apply b') := by
  cases e with
  | check fault? =>
    cases fault? with
    | none => exact .ok h
    | some fault => exact .error _
  | lower => exact h.dedent hz
  | raise => exact .ok h.indent
  | write text => exact .ok (h.emit (.text text))
  | breakLine => exact .ok h.newLine
  | breakBare => exact .ok (h.emit (.bareLine h.layout))
  | setUnit unit => exact .ok ⟨h.level, he _ _ h.layout, h.fragments⟩
  | setNewline newline => exact .ok ⟨h.level, he _ _ h.layout, h.fragments⟩
  | setSink sink => exact .ok ⟨h.level, h.layout, h.fragments⟩
  | clear => exact he.elim

/-- Effects in order keep builders together, up to one that is refused on both sides. -/
theorem effects : ∀ {es : List Effect} {b b' : Builder}, p.Builders b b' → (∀ e ∈ es, p.Admits e) →
    (0 < p.rise → es.foldlM Effect.apply b ≠ .error .levelIsZero) →
    p.Results (es.foldlM Effect.apply b) (es.foldlM Effect.apply b')
  | [], _, _, h, _, _ => .ok h
  | e :: es, b, b', h, he, hz => by
    rw [List.foldlM_cons] at hz
    have hr : p.Results (e.apply b) (e.apply b') := by
      refine h.effect (he e List.mem_cons_self) fun hp ha => hz hp ?_
      rw [ha]
      rfl
    rw [List.foldlM_cons, List.foldlM_cons]
    obtain ⟨b₁, b₁', ha, ha', h₁⟩ | ⟨fault, ha, ha'⟩ := hr.ok_or_error
    · rw [ha] at hz ⊢
      rw [ha']
      exact h₁.effects (fun e' he' => he e' (List.mem_cons_of_mem e he')) hz
    · rw [ha, ha']
      exact .error fault

theorem command {c : Command} (h : p.Builders b b') (hc : ∀ e ∈ c.effects, p.Admits e)
    (hz : 0 < p.rise → (c.run b).fault? ≠ some .levelIsZero) :
    (c.run b).Alike p.Builders (c.run b') := by
  have hr : p.Results (c.apply b) (c.apply b') := by
    rw [← c.foldlM_effects b, ← c.foldlM_effects b']
    refine h.effects hc fun hp ha => hz hp ?_
    rw [c.foldlM_effects] at ha
    simp only [Command.run, ha, Outcome.fault?]
  unfold Command.run
  obtain ⟨b₁, b₁', ha, ha', h₁⟩ | ⟨fault, ha, ha'⟩ := hr.ok_or_error
  · rw [ha, ha']
    exact ⟨h, h₁, rfl⟩
  · rw [ha, ha']
    exact ⟨h, h, rfl⟩

mutual

theorem run {b b' : Builder} (h : p.Builders b b') : ∀ s : Step, p.AdmitsAll s.commands →
    (0 < p.rise → Fault.levelIsZero ∉ (s.run b).faults) →
    Trace.Alike p.Builders (s.run b) (s.run b')
  | .command c, hs, hz => by
    refine .command (h.command (hs c (by simp [Step.commands])) fun hp hf => hz hp ?_)
    simp [Step.run, Trace.faults, hf]
  | .indented body tolerant failure, hs, hz => by
    have hb : Trace.AllAlike p.Builders (Step.runAll tolerant b.indent body)
        (Step.runAll tolerant b'.indent body) :=
      h.indent.runAll tolerant body hs fun hp hf => hz hp (List.mem_append_left _ hf)
    have ha := (hb.final h.indent).atLevel b.level
    rw [← h.level] at ha
    exact .indented ⟨h, ha, hb.fault?_eq rfl rfl⟩ hb

/-- **Whole runs** keep builders together at every step, at the top and in bodies. -/
theorem runAll {b b' : Builder} (h : p.Builders b b') (tolerant : Bool) : ∀ ss : List Step,
    p.AdmitsAll (Step.allCommands ss) →
    (0 < p.rise → Fault.levelIsZero ∉ Trace.allFaults (Step.runAll tolerant b ss)) →
    Trace.AllAlike p.Builders (Step.runAll tolerant b ss) (Step.runAll tolerant b' ss)
  | [], _, _ => .nil
  | s :: ss, hs, hz => by
    have hs := List.forall_mem_append.1 hs
    have ht : Trace.Alike p.Builders (s.run b) (s.run b') := by
      refine h.run s hs.1 fun hp hf => hz hp ?_
      rw [Step.runAll]
      split <;> exact List.mem_append_left _ hf
    rw [Step.runAll] at hz
    rw [Step.runAll, Step.runAll, ht.outcome.failed]
    split
    · exact .cons ht .nil
    · rename_i hf
      rw [if_neg hf] at hz
      exact .cons ht (ht.outcome.after.runAll tolerant ss hs.2 fun hp hf =>
        hz hp (List.mem_append_right _ hf))

end

end Builders
end Pairing
end LuaSource
