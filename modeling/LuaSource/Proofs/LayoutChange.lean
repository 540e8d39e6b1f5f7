/-
The layout shows in the layout alone. Steps without setters that run on a builder in
one layout and on the same builder in another do the same, with the same verdicts and
at the same levels. The fragments that they add are the same texts, and the breaks are
of the same kinds and depths, each in the layout of its builder.

The two runs are a pairing (`Proofs.SideBySide`) in which the two layouts go together
and no others, which is why setters are left out.
-/
import LuaSource.Proofs.SideBySide

namespace LuaSource

/-! ## Fragments in two layouts -/

/-- One fragment in two layouts: the same text, or a break of the same kind and depth. -/
inductive Fragment.Relaid (l l' : Layout) : Fragment → Fragment → Prop
  | text (s : String) : Relaid l l' (.text s) (.text s)
  | line (depth : Nat) : Relaid l l' (.line l depth) (.line l' depth)
  | bareLine : Relaid l l' (.bareLine l) (.bareLine l')

def Fragment.isBreak : Fragment → Bool
  | .text _ => false
  | .line _ _ | .bareLine _ => true

variable {l l' : Layout} {f f' : Fragment}

theorem Fragment.Relaid.render (h : f.Relaid l l' f') :
    f' = f ∨ ∃ k, f.render = l.newline ++ l.indentation k ∧
      f'.render = l'.newline ++ l'.indentation k := by
  cases h with
  | text s => exact .inl rfl
  | line depth => exact .inr ⟨depth, rfl, rfl⟩
  | bareLine => exact .inr ⟨0, String.append_empty.symm, String.append_empty.symm⟩

/-- If only the line ends differ, the longer one has a carriage return more, at breaks
and nowhere else. -/
theorem Fragment.Relaid.render_crlf {unit : String}
    (h : Relaid ⟨unit, LineEnding.lf.text⟩ ⟨unit, LineEnding.crlf.text⟩ f f') :
    f'.render = if f.isBreak then "\r" ++ f.render else f.render := by
  have hr : LineEnding.crlf.text = "\r" ++ LineEnding.lf.text := by decide
  cases h with
  | text s => rfl
  | line depth =>
    show LineEnding.crlf.text ++ _ = "\r" ++ (LineEnding.lf.text ++ _)
    rw [hr, String.append_assoc]
    rfl
  | bareLine => exact hr

/-! ## Builders in two layouts -/

/-- One builder in the layouts `l` and `l'`: the level is the same, and what was added since
both held `start` is the same but for the layout of its breaks. -/
structure Builder.Relaid (start : List Fragment) (l l' : Layout) (b b' : Builder) : Prop where
  level : b'.level = b.level
  layout : b.layout = l
  layout' : b'.layout = l'
  count : b'.count = b.count
  fragments : ∃ added added', b.fragments = start ++ added ∧ b'.fragments = start ++ added' ∧
    List.Forall₂ (Fragment.Relaid l l') added added'

def Pairing.relaid (start : List Fragment) (l l' : Layout) : Pairing :=
  ⟨start, start, 0, fun l₁ l₁' => l₁ = l ∧ l₁' = l'⟩

theorem Pairing.Fragments.relaid {start : List Fragment}
    (h : (Pairing.relaid start l l').Fragments f f') : f.Relaid l l' f' := by
  cases h with
  | text s => exact .text s
  | line depth hl =>
    obtain ⟨rfl, rfl⟩ := hl
    exact .line depth
  | bareLine hl =>
    obtain ⟨rfl, rfl⟩ := hl
    exact .bareLine

theorem Pairing.Builders.relaid {start : List Fragment} {b b' : Builder}
    (h : (Pairing.relaid start l l').Builders b b') : b.Relaid start l l' b' := by
  obtain ⟨added, added', hb, hb', hp⟩ := h.fragments
  exact ⟨h.level, h.layout.1, h.layout.2, h.count rfl, added, added', hb, hb',
    hp.imp fun _ _ hf => hf.relaid⟩

/-- **The layout shows in the layout alone.** Steps without setters and resets, run on the
same builder in two layouts, have the same verdicts, levels and fragment counts, at the top
and in bodies. The fragments that they add are the same one by one, but that a break of the
one layout is a break of the other with as many units. So the source with carriage returns
at its line ends is the source without, with a carriage return before each of its breaks and
nowhere else. -/
theorem Step.runAll_relaid (ss : List Step) (h : ∀ c ∈ Step.allCommands ss, c.setsLayout = false)
    (b : Builder) (tolerant : Bool) :
    let run (l : Layout) := Step.runAll tolerant { b with layout := l } ss
    let final (l : Layout) := Trace.final { b with layout := l } (run l)
    (∀ l l', Trace.AllAlike (Builder.Relaid b.fragments l l') (run l) (run l')) ∧
      (∀ l l' f f', Fragment.Relaid l l' f f' → f' = f ∨
        ∃ k, f.render = l.newline ++ l.indentation k ∧
          f'.render = l'.newline ++ l'.indentation k) ∧
      ∀ unit, ∃ added, (final ⟨unit, LineEnding.lf.text⟩).fragments = b.fragments ++ added ∧
        (final ⟨unit, LineEnding.crlf.text⟩).render = b.render ++
          String.join (added.map fun f => if f.isBreak then "\r" ++ f.render else f.render) := by
  intro run final
  have hb (l l' : Layout) :
      (Pairing.relaid b.fragments l l').Builders { b with layout := l } { b with layout := l' } :=
    ⟨rfl, ⟨rfl, rfl⟩, [], [], (List.append_nil _).symm, (List.append_nil _).symm, .nil⟩
  have hr (l l' : Layout) :
      Trace.AllAlike (Pairing.relaid b.fragments l l').Builders (run l) (run l') :=
    (hb l l').runAll tolerant ss (Pairing.admitsAll_of_not_setsLayout h)
      fun hp => absurd hp (Nat.lt_irrefl 0)
  refine ⟨fun l l' => (hr l l').mono fun _ _ => Pairing.Builders.relaid,
    fun _ _ _ _ hf => hf.render, fun unit => ?_⟩
  have hf := ((hr ⟨unit, LineEnding.lf.text⟩ ⟨unit, LineEnding.crlf.text⟩).final (hb _ _)).relaid
  obtain ⟨added, added', ha, ha', hp⟩ := hf.fragments
  refine ⟨added, ha, ?_⟩
  have hm : added'.map Fragment.render =
      added.map fun f => if f.isBreak then "\r" ++ f.render else f.render := by
    rw [← List.forall₂_eq_eq_eq, List.forall₂_map_left_iff, List.forall₂_map_right_iff]
    exact hp.flip.imp fun _ _ hf => hf.render_crlf
  rw [Builder.render, ha', List.map_append, String.join_append, hm]
  rfl

/-- Breaks of the builder, a break in a verbatim text, and a closer too many. -/
def brokenSteps : List Step :=
  [.command (.openBlock (.whileDo "x")),
    .indented [.command .newLine, .command (.put (.verbatim "f()\ng()"))] true none,
    .command (.closeBlock .endBlock),
    .command (.closeBlock .endBlock),
    .command .newBareLine]

/-- The break in the text stays as it is. -/
theorem runAll_relaid_brokenSteps :
    let lf : Builder := { layout := ⟨"\t", LineEnding.lf.text⟩ }
    let crlf : Builder := { layout := ⟨"\t", LineEnding.crlf.text⟩ }
    (∀ c ∈ Step.allCommands brokenSteps, c.setsLayout = false) ∧
    (Trace.final lf (Step.runAll true lf brokenSteps)).render = "while x do\n\t\tf()\ng()\nend\n" ∧
    (Trace.final crlf (Step.runAll true crlf brokenSteps)).render =
      "while x do\r\n\t\tf()\ng()\r\nend\r\n" := by
  intro lf crlf
  have h : ∀ c ∈ Step.allCommands brokenSteps, c.setsLayout = false := by decide
  have hl : (Trace.final lf (Step.runAll true lf brokenSteps)).fragments =
      [.text "while x do", .line lf.layout 2, .text "f()\ng()", .line lf.layout 0, .text "end",
        .bareLine lf.layout] := by decide +kernel
  obtain ⟨added, ha, hr⟩ := (Step.runAll_relaid brokenSteps h {} true).2.2 "\t"
  obtain rfl := ha.symm.trans hl
  refine ⟨h, ?_, ?_⟩
  · rw [Builder.render, hl]
    rfl
  · exact hr.trans rfl

end LuaSource
