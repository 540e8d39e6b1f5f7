/-
Source can be moved to another depth. Steps that run on a builder some levels
deeper do what they did: each is accepted or refused as before, and the source is
the same but for the lines, each indented so many units further. The units are
those of the line, since the fragment keeps the layout in which it was put.

The two runs are a pairing (`Proofs.SideBySide`) of one layout and a rise.
-/
import LuaSource.Proofs.SideBySide

namespace LuaSource

/-! ## Deeper fragments -/

/-- The fragment `d` levels deeper. Text has no depth, and neither has a bare break. -/
def Fragment.deeper (d : Nat) : Fragment → Fragment
  | .line l depth => .line l (depth + d)
  | f => f

theorem Layout.indentation_add (l : Layout) (m n : Nat) :
    l.indentation (m + n) = l.indentation m ++ l.indentation n := by
  rw [indentation, List.replicate_add, String.join_append, indentation, indentation]

theorem Fragment.render_deeper_line (l : Layout) (depth d : Nat) :
    ((Fragment.line l depth).deeper d).render =
      (Fragment.line l depth).render ++ String.join (List.replicate d l.unit) := by
  rw [deeper, render, Layout.indentation_add, ← String.append_assoc]
  rfl

/-- What goes together on one layout is the same fragment, as much deeper as its builder. -/
theorem Pairing.Fragments.eq_deeper {start start' : List Fragment} {d : Nat} {f f' : Fragment}
    (h : (Pairing.mk start start' d Eq).Fragments f f') : f' = f.deeper d := by
  cases h with
  | text s => rfl
  | line depth hl =>
    cases hl
    rfl
  | bareLine hl =>
    cases hl
    rfl

/-! ## Deeper builders -/

/-- `b'` stands `d` levels deeper than `b`. Both once held `start`, and what came to `b'`
since is what came to `b`, `d` levels deeper. -/
structure Builder.DeeperBy (start : List Fragment) (d : Nat) (b b' : Builder) : Prop where
  level : b'.level = b.level + d
  layout : b'.layout = b.layout
  count : b'.count = b.count
  fragments : ∃ added, b.fragments = start ++ added ∧
    b'.fragments = start ++ added.map (Fragment.deeper d)

theorem Pairing.Builders.deeperBy {start : List Fragment} {d : Nat} {b b' : Builder}
    (h : (Pairing.mk start start d Eq).Builders b b') : b.DeeperBy start d b' := by
  obtain ⟨added, added', hb, hb', hp⟩ := h.fragments
  have hd : added.map (Fragment.deeper d) = added' := by
    rw [← List.forall₂_eq_eq_eq, List.forall₂_map_left_iff]
    exact hp.imp fun f f' hf => hf.eq_deeper.symm
  rw [← hd] at hb'
  exact ⟨h.level, h.layout.symm, h.count rfl, added, hb, hb'⟩

/-! ## Lines and their layouts -/

/-- A command other than a reset adds to what is there, and a line that it adds has the
layout of that moment. -/
theorem Command.layout_of_line_added {b b' : Builder} {c : Command} (h : c.apply b = .ok b')
    (hc : c ≠ .reset) : ∃ added, b'.fragments = b.fragments ++ added ∧
      ∀ l depth, Fragment.line l depth ∈ added → l = b.layout :=
  ⟨c.added b, fragments_of_apply hc h, fun _ _ => eq_layout_of_line_mem_added⟩

/-- **Source can be moved.** If steps without a reset, run on any builder, are never refused
for the level, at the top or in a body, then on the same builder `d` levels deeper every
step has the same verdict, and before and after it the level is `d` higher, the fragments
are as many, and those that were added are the same, `d` levels deeper. A line that is `d`
levels deeper is the line with `d` of its own units after it, and its layout is the one in
force when a command added it. -/
theorem Step.runAll_deeper (ss : List Step) (h : ∀ c ∈ Step.allCommands ss, c ≠ .reset)
    (b : Builder) (d : Nat) (tolerant : Bool)
    (hz : Fault.levelIsZero ∉ Trace.allFaults (Step.runAll tolerant b ss)) :
    Trace.AllAlike (Builder.DeeperBy b.fragments d) (Step.runAll tolerant b ss)
        (Step.runAll tolerant (b.atLevel (b.level + d)) ss) ∧
      (∀ l depth, ((Fragment.line l depth).deeper d).render =
        (Fragment.line l depth).render ++ String.join (List.replicate d l.unit)) ∧
      ∀ (b b' : Builder) (c : Command), c.apply b = .ok b' → c ≠ .reset →
        ∃ added, b'.fragments = b.fragments ++ added ∧
          ∀ l depth, Fragment.line l depth ∈ added → l = b.layout := by
  let p : Pairing := ⟨b.fragments, b.fragments, d, Eq⟩
  have hp : p.Builders b (b.atLevel (b.level + d)) :=
    ⟨rfl, rfl, [], [], (List.append_nil _).symm, (List.append_nil _).symm, .nil⟩
  have hr := hp.runAll tolerant ss (Pairing.admitsAll_of_ne_reset h) fun _ => hz
  exact ⟨hr.mono fun _ _ => Pairing.Builders.deeperBy,
    fun l depth => Fragment.render_deeper_line l depth d,
    fun _ _ _ ha hc => Command.layout_of_line_added ha hc⟩

/-- A body that fails half way, in a block whose unit is changed before it ends. -/
def shiftingSteps : List Step :=
  [.command (.openBlock (.ifThen "x")),
    .indented [.command .newLine, .command (.put (.field "a b")), .command .newLine] false none,
    .command .newBareLine,
    .command (.setUnit "\t"),
    .command (.closeBlock .endBlock)]

/-- From level 1, and from level 3. -/
theorem runAll_deeper_shiftingSteps :
    let b : Builder := { level := 1, layout := ⟨"  ", "\n"⟩ }
    (∀ c ∈ Step.allCommands shiftingSteps, c ≠ .reset) ∧
    Trace.allFaults (Step.runAll true b shiftingSteps) =
      [.badArgument (.notAName .fieldName "a b"), .badArgument (.notAName .fieldName "a b")] ∧
    (Trace.final b (Step.runAll true b shiftingSteps)).render = "if x then\n      \n\n\tend" ∧
    (Trace.final (b.atLevel (b.level + 2))
      (Step.runAll true (b.atLevel (b.level + 2)) shiftingSteps)).render =
        "if x then\n          \n\n\t\t\tend" := by
  intro b
  have h : ∀ c ∈ Step.allCommands shiftingSteps, c ≠ .reset := by decide
  have hf : Trace.allFaults (Step.runAll true b shiftingSteps) =
      [.badArgument (.notAName .fieldName "a b"), .badArgument (.notAName .fieldName "a b")] := by
    decide +kernel
  have hz : Fault.levelIsZero ∉ Trace.allFaults (Step.runAll true b shiftingSteps) := by
    rw [hf]
    decide
  obtain ⟨ha, -⟩ := Step.runAll_deeper shiftingSteps h b 2 true hz
  have hl : (Trace.final b (Step.runAll true b shiftingSteps)).fragments =
      [.text "if x then", .line ⟨"  ", "\n"⟩ 3, .bareLine ⟨"  ", "\n"⟩, .line ⟨"\t", "\n"⟩ 1,
        .text "end"] := by decide +kernel
  have hd : b.DeeperBy b.fragments 2 (b.atLevel (b.level + 2)) := ⟨rfl, rfl, rfl, [], rfl, rfl⟩
  obtain ⟨added, hb, hb'⟩ := (ha.final hd).fragments
  obtain rfl := hb.symm.trans hl
  refine ⟨h, hf, ?_, ?_⟩
  · rw [Builder.render, hl]
    rfl
  · rw [Builder.render, hb']
    rfl

end LuaSource
