/-
Parts that are built apart can be merged. Scripts that each end well on a new builder may as
well be run one after the other on one builder, with a line break in between: every step has
the verdict and the level that it had alone, and the source is the sources of the parts, line
after line.

A script that ends well leaves the level at zero, and without setters the layout is that of
a new builder, so the next script starts where a new builder stands (`Fresh`). Only the
fragments that are there already tell the two apart, and no step looks at them
(`Proofs.SideBySide`).
-/
import LuaSource.Report
import LuaSource.Proofs.SideBySide

namespace LuaSource

/-! ## Parts -/

/-- `b'` does what `b` does, after the fragments `start`. -/
structure Builder.Continues (start : List Fragment) (b b' : Builder) : Prop where
  level : b'.level = b.level
  layout : b'.layout = b.layout
  fragments : b'.fragments = start ++ b.fragments

/-- The builder stands where a new one stands, whatever it holds already. -/
structure Builder.Fresh (b : Builder) : Prop where
  level : b.level = 0
  layout : b.layout = {}

/-- A new builder, and one that holds `start` already; no layout but the usual one. -/
def Pairing.continuing (start : List Fragment) : Pairing :=
  ⟨[], start, 0, fun l l' => l = {} ∧ l' = {}⟩

theorem Pairing.Fragments.eq_of_continuing {start : List Fragment} {f f' : Fragment}
    (h : (Pairing.continuing start).Fragments f f') : f = f' := by
  cases h with
  | text s => rfl
  | line depth hl =>
    obtain ⟨rfl, rfl⟩ := hl
    rfl
  | bareLine hl =>
    obtain ⟨rfl, rfl⟩ := hl
    rfl

theorem Pairing.Builders.continues {start : List Fragment} {b b' : Builder}
    (h : (Pairing.continuing start).Builders b b') : b.Continues start b' := by
  obtain ⟨added, added', hb, hb', hp⟩ := h.fragments
  have he : added = added' := by
    rw [← List.forall₂_eq_eq_eq]
    exact hp.imp fun _ _ hf => hf.eq_of_continuing
  refine ⟨h.level, h.layout.2.trans h.layout.1.symm, ?_⟩
  rw [hb', hb, ← he]
  rfl

theorem Script.verdict_eq_ok_iff {s : Script} {text : String} :
    s.run.ending.verdict = .ok text ↔ s.run.final.level = 0 ∧ s.run.final.render = text :=
  Builder.finish_eq_ok_iff

namespace Builder.Fresh

variable {b : Builder}

theorem newLine (h : b.Fresh) : b.newLine.Fresh ∧ b.newLine.render = b.render ++ "\n" := by
  refine ⟨⟨h.level, h.layout⟩, ?_⟩
  rw [render_newLine, h.level, h.layout]
  rfl

/-- A part that ends well alone does the same here, and leaves the builder as it found it
but for its own source. -/
theorem part (hb : b.Fresh) {ss : List Step} {text : String}
    (h : ∀ c ∈ Step.allCommands ss, c.setsLayout = false)
    (ht : (Script.run { steps := ss }).ending.verdict = .ok text) :
    let ts := Step.runAll true b ss
    Trace.AllAlike (Continues b.fragments) (Script.run { steps := ss }).traces ts ∧
      (Trace.final b ts).Fresh ∧ (Trace.final b ts).render = b.render ++ text := by
  intro ts
  have hp : (Pairing.continuing b.fragments).Builders {} b :=
    ⟨hb.level, ⟨rfl, hb.layout⟩, [], [], rfl, (List.append_nil _).symm, .nil⟩
  have hr := hp.runAll true ss (Pairing.admitsAll_of_not_setsLayout h)
    fun hp => absurd hp (Nat.lt_irrefl 0)
  have hf := hr.final hp
  obtain ⟨hlevel, hrender⟩ := Script.verdict_eq_ok_iff.1 ht
  refine ⟨hr.mono fun _ _ => Pairing.Builders.continues, ⟨hf.level.trans hlevel, hf.layout.2⟩, ?_⟩
  rw [Builder.render, hf.continues.fragments, List.map_append, String.join_append, ← hrender]
  rfl

end Builder.Fresh

/-! ## Merged parts -/

/-- The parts one after the other, with a line break between neighbours. -/
def Step.joined (parts : List (List Step)) : List Step := List.intercalate [.command .newLine] parts

theorem Step.joined_cons_cons (ss ss' : List Step) (parts : List (List Step)) :
    Step.joined (ss :: ss' :: parts) = ss ++ .command .newLine :: Step.joined (ss' :: parts) := by
  rw [joined, List.intercalate_cons_cons, List.append_assoc, List.singleton_append, joined]

/-- The traces of one run are those of the parts, each part alike to its run alone, with a
line break between neighbours. -/
inductive Trace.Merged : List (List Trace) → List Trace → Prop
  | nil : Merged [] []
  | part {start : List Fragment} {alone ts : List Trace} :
    AllAlike (Builder.Continues start) alone ts → Merged [alone] ts
  | more {start : List Fragment} {alone alone' ts ts' : List Trace} {parts : List (List Trace)}
    {o : Outcome} : AllAlike (Builder.Continues start) alone ts → o.failed = false →
    Merged (alone' :: parts) ts' →
    Merged (alone :: alone' :: parts) (ts ++ .command .newLine o :: ts')

theorem Builder.Fresh.joined : ∀ {parts : List (List Step)} {texts : List String} {b : Builder},
    b.Fresh → (∀ ss ∈ parts, ∀ c ∈ Step.allCommands ss, c.setsLayout = false) →
    List.Forall₂ (fun ss text => (Script.run { steps := ss }).ending.verdict = .ok text) parts texts →
    let ts := Step.runAll true b (Step.joined parts)
    Trace.Merged (parts.map fun ss => (Script.run { steps := ss }).traces) ts ∧
      (Trace.final b ts).Fresh ∧ (Trace.final b ts).render = b.render ++ "\n".intercalate texts
  | [], _, b, hb, _, .nil => ⟨.nil, hb, String.append_empty.symm⟩
  | [ss], _, b, hb, h, .cons ht .nil => by
    obtain ⟨hts, hf, hr⟩ := hb.part (h ss List.mem_cons_self) ht
    rw [Step.joined, List.intercalate_singleton, String.intercalate_singleton]
    exact ⟨.part hts, hf, hr⟩
  | ss :: ss' :: parts, _, b, hb, h, .cons ht (.cons ht' hts') => by
    obtain ⟨hts, hf, hr⟩ := hb.part (h ss List.mem_cons_self) ht
    obtain ⟨hf₁, hr₁⟩ := hf.newLine
    obtain ⟨hm, hf₂, hr₂⟩ :=
      hf₁.joined (fun ss hss => h ss (List.mem_cons_of_mem _ hss)) (.cons ht' hts')
    rw [Step.joined_cons_cons, Step.runAll_append, Step.runAll_cons]
    refine ⟨.more hts rfl hm, ?_, ?_⟩
    · rw [Trace.final_append]
      exact hf₂
    · rw [Trace.final_append, String.intercalate_cons_cons]
      refine hr₂.trans ?_
      rw [hr₁, hr, String.append_assoc, String.append_assoc, String.append_assoc]

/-- **Parts can be built apart.** If scripts without setters and resets each end well on a new
builder, then one script that runs them in order, with a line break between neighbours, has
the steps of each part with the verdicts and at the levels that they had alone, and ends well
with the sources of the parts, line after line. -/
theorem Script.run_joined (parts : List (List Step)) (texts : List String)
    (h : ∀ ss ∈ parts, ∀ c ∈ Step.allCommands ss, c.setsLayout = false)
    (ht : List.Forall₂ (fun ss text => (Script.run { steps := ss }).ending.verdict = .ok text)
      parts texts) :
    let whole : Script := { steps := Step.joined parts }
    Trace.Merged (parts.map fun ss => (Script.run { steps := ss }).traces) whole.run.traces ∧
      whole.run.ending.verdict = .ok ("\n".intercalate texts) := by
  intro whole
  have hs : whole.start.Fresh := ⟨rfl, rfl⟩
  obtain ⟨hm, hf, hr⟩ := hs.joined h ht
  exact ⟨hm, Script.verdict_eq_ok_iff.2 ⟨hf.level, hr.trans String.empty_append⟩⟩

/-- A function, and a comment with a closer too many before it and a body that fails. -/
def workerParts : List (List Step) :=
  [[.command (.openBlock (.localFunction "a" [])), .command .newLine,
      .command (.put (.returns ["a"])), .command (.closeBlock .endBlock)],
    [.command (.closeBlock .endBlock), .command (.put (.comment "b")),
      .indented [.command .newLine, .command .dedent, .command (.put (.goto "1"))] false none]]

/-- In the second part the closer is refused in the merged run too, since the function is
closed by then. -/
theorem run_joined_workerParts :
    (∀ ss ∈ workerParts, ∀ c ∈ Step.allCommands ss, c.setsLayout = false) ∧
    List.Forall₂ (fun ss text => (Script.run { steps := ss }).ending.verdict = .ok text)
      workerParts ["local function a()\n    return a\nend", "-- b\n    "] ∧
    (Script.run { steps := Step.joined workerParts }).ending.verdict =
      .ok "local function a()\n    return a\nend\n-- b\n    " := by
  have h : ∀ ss ∈ workerParts, ∀ c ∈ Step.allCommands ss, c.setsLayout = false := by decide
  have ht : List.Forall₂ (fun ss text => (Script.run { steps := ss }).ending.verdict = .ok text)
      workerParts ["local function a()\n    return a\nend", "-- b\n    "] :=
    .cons (Script.verdict_eq_ok_iff.2 ⟨by decide +kernel, by decide +kernel⟩)
      (.cons (Script.verdict_eq_ok_iff.2 ⟨by decide +kernel, by decide +kernel⟩) .nil)
  refine ⟨h, ht, (Script.run_joined workerParts _ h ht).2.trans (congrArg Except.ok ?_)⟩
  decide +kernel

end LuaSource
