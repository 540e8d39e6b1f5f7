/-
The lines of the source. A run emits texts and breaks, in the order of the
effects that it does. The source is these emissions one after the other, so
its lines are what stands between the breaks, if no text and no indentation
breaks a line by itself. That no text does is a law of the texts
(`Proofs.OneLine`): nothing but a long string carries a break of its own.
-/
import LuaSource.Report
import LuaSource.Proofs.BuilderFacts
import LuaSource.Proofs.InPlace
import LuaSource.Proofs.OneLine
import LuaSource.Proofs.RunFacts

namespace LuaSource

/-! ## Emissions -/

/-- What is put at the end of the source: a text, or a break with so many units of
indentation after it. -/
inductive Emission
  | text (s : String)
  | lineBreak (units : Nat)
  deriving DecidableEq, Repr

def Emission.isBreak : Emission → Bool
  | .text _ => false
  | .lineBreak _ => true

def Emission.render (l : Layout) : Emission → String
  | .text s => s
  | .lineBreak units => l.newline ++ l.indentation units

def Emission.renderAll (l : Layout) (es : List Emission) : String := String.join (es.map (·.render l))

namespace Effect

/-- What an effect emits: a break has the level of the moment after it, a bare one
nothing. -/
def emission (b : Builder) : Effect → List Emission
  | .write text => [.text text]
  | .breakLine => [.lineBreak b.level]
  | .breakBare => [.lineBreak 0]
  | _ => []

def emissions (b : Builder) : List Effect → List Emission
  | [] => []
  | e :: es =>
    match e.apply b with
    | .ok b' => e.emission b ++ emissions b' es
    | .error _ => []

end Effect

namespace Trace

mutual

/-- What the accepted commands of a trace emit, those of its bodies among them. -/
def emissions : Trace → List Emission
  | .command c o => if o.failed then [] else Effect.emissions o.before c.effects
  | .indented _ body => allEmissions body

def allEmissions : List Trace → List Emission
  | [] => []
  | t :: ts => t.emissions ++ allEmissions ts

end

end Trace

/-! ## What is emitted is what the source gets -/

/-- Whether an effect leaves the layout and the source so far alone. -/
def Effect.onlyAdds : Effect → Bool
  | .setUnit _ | .setNewline _ | .clear => false
  | _ => true

theorem Effect.render_of_apply {e : Effect} {b b' : Builder} (he : e.onlyAdds = true)
    (h : e.apply b = .ok b') :
    b'.layout = b.layout ∧ b'.render = b.render ++ Emission.renderAll b.layout (e.emission b) := by
  cases e with
  | setUnit | setNewline | clear => cases he
  | check fault? =>
    rw [eq_of_apply_check h]
    simp [emission, Emission.renderAll]
  | lower =>
    obtain ⟨n, -, rfl⟩ := Builder.dedent_eq_ok_iff.1 h
    simp [emission, Emission.renderAll]
  | raise | setSink =>
    cases h
    exact ⟨rfl, String.append_empty.symm⟩
  | write text =>
    cases h
    simp [emission, Emission.renderAll, Emission.render]
  | breakLine =>
    cases h
    simp [emission, Emission.renderAll, Emission.render]
  | breakBare =>
    cases h
    refine ⟨rfl, (b.render_emit _).trans ?_⟩
    simp [emission, Emission.renderAll, Emission.render, Fragment.render, Layout.indentation]

/-- `b'` has grown out of `b` by the emissions, all of them without breaks in their
texts. -/
structure Grown (b b' : Builder) (es : List Emission) : Prop where
  layout : b'.layout = b.layout
  render : b'.render = b.render ++ Emission.renderAll b.layout es
  oneLine : ∀ s, Emission.text s ∈ es → OneLine s

theorem Grown.nil (b : Builder) : Grown b b [] :=
  ⟨rfl, String.append_empty.symm, fun _ h => by cases h⟩

theorem Grown.append {b b' b'' : Builder} {es es' : List Emission} (h : Grown b b' es)
    (h' : Grown b' b'' es') : Grown b b'' (es ++ es') where
  layout := h'.layout.trans h.layout
  render := by
    rw [h'.render, h.render, h.layout, String.append_assoc, Emission.renderAll, Emission.renderAll,
      Emission.renderAll, List.map_append, String.join_append]
  oneLine s hs := (List.mem_append.1 hs).elim (h.oneLine s) (h'.oneLine s)

theorem Grown.of_perform : ∀ {es : List Effect} {b b' : Builder}, (∀ e ∈ es, e.onlyAdds = true) →
    (∀ s, Effect.write s ∈ es → OneLine s) → Effect.perform b es = (b', none) →
    Grown b b' (Effect.emissions b es)
  | [], b, _, _, _, h => by
    cases h
    exact .nil b
  | e :: es, b, b', hadd, hone, h => by
    cases ha : e.apply b with
    | error fault =>
      rw [Effect.perform_cons_of_error ha] at h
      cases h
    | ok b₁ =>
      rw [Effect.perform_cons_of_ok ha] at h
      have he : Grown b b₁ (e.emission b) := by
        obtain ⟨hl, hr⟩ := Effect.render_of_apply (hadd e List.mem_cons_self) ha
        refine ⟨hl, hr, fun s hs => hone s ?_⟩
        cases e with
        | write text =>
          cases List.mem_singleton.1 hs
          exact List.mem_cons_self
        | breakLine | breakBare => cases List.mem_singleton.1 hs
        | check | lower | raise | setUnit | setNewline | setSink | clear => cases hs
      have hes : Grown b₁ b' (Effect.emissions b₁ es) :=
        .of_perform (fun e' he' => hadd e' (List.mem_cons_of_mem e he'))
          (fun s hs => hone s (List.mem_cons_of_mem e hs)) h
      rw [Effect.emissions, ha]
      exact he.append hes

/-! ## Commands that break no line by themselves -/

namespace Command

/-- The arguments that go into the source verbatim. -/
def arguments : Command → List String
  | .put p => p.arguments
  | .openBlock o => o.arguments
  | .continueBlock br => br.arguments
  | .closeBlock c => c.arguments
  | _ => []

/-- Whether a command is a long string, a change of the layout or a reset. -/
def breaksOut : Command → Bool
  | .put p => p.isLongString
  | .setUnit _ | .setNewline _ | .reset => true
  | _ => false

/-- A command whose breaks are those of its effects, and no others. -/
def WithinLines (c : Command) : Prop := c.breaksOut = false ∧ ∀ a ∈ c.arguments, OneLine a

instance : DecidablePred WithinLines := fun c =>
  inferInstanceAs (Decidable (c.breaksOut = false ∧ ∀ a ∈ c.arguments, OneLine a))

theorem onlyAdds_of_mem_effects {c : Command} (h : c.breaksOut = false) :
    ∀ e ∈ c.effects, e.onlyAdds = true := by
  rw [← List.all_eq_true]
  cases c with
  | setUnit | setNewline | reset => cases h
  | put | openBlock | continueBlock | closeBlock | indent | dedent | newLine | newDeeperLine |
      newOuterLine | newBareLine | setSink | ask => rfl

theorem WithinLines.oneLine {c : Command} (h : c.WithinLines) {s : String}
    (hs : Effect.write s ∈ c.effects) : OneLine s := by
  cases c with
  | put p =>
    obtain rfl : s = p.text := by simpa [effects] using hs
    exact p.oneLine_text h.1 h.2
  | openBlock o =>
    obtain rfl : s = o.text := by simpa [effects] using hs
    exact o.oneLine_text h.2
  | continueBlock br =>
    obtain rfl : s = br.text := by simpa [effects] using hs
    exact br.oneLine_text h.2
  | closeBlock cl =>
    obtain rfl : s = cl.text := by simpa [effects] using hs
    exact cl.oneLine_text h.2
  | indent | dedent | newLine | newDeeperLine | newOuterLine | newBareLine | setUnit | setNewline |
      setSink | reset | ask => simp [effects] at hs

theorem grown {c : Command} (h : c.WithinLines) (b : Builder) :
    Grown b (c.run b).after (Trace.command c (c.run b)).emissions := by
  rw [Trace.emissions]
  split
  · rename_i hf
    cases ha : c.apply b with
    | ok b' =>
      rw [(run_of_ok ha).2] at hf
      cases hf
    | error fault =>
      rw [(run_of_error ha).1]
      exact .nil b
  · rename_i hf
    rw [Bool.not_eq_true] at hf
    have hp := c.perform_effects b
    rw [Outcome.fault?_eq_none hf] at hp
    rw [run_before]
    exact .of_perform (onlyAdds_of_mem_effects h.1) (fun s hs => h.oneLine hs) hp

end Command

/-- **Runs grow by what they emit**, bodies at any depth included. -/
theorem Trace.grownLaw : RunLaw Command.WithinLines
    (fun b t => Grown b t.outcome.after t.emissions)
    (fun b ts => Grown b (Trace.final b ts) (Trace.allEmissions ts)) where
  command b _ hc := Command.grown hc b
  indented _ _ _ _ h :=
    -- The level is no part of what is emitted, so raising it and setting it back adds nothing.
    ⟨h.layout, h.render, h.oneLine⟩
  nil b := .nil b
  cons _ _ _ ht hts := ht.append hts

/-! ## Lines -/

namespace Emission

/-- The texts before the first break, and for each break its units and the texts
between it and the next. -/
def sections : List Emission → List String × List (Nat × List String)
  | [] => ([], [])
  | .text s :: es => (s :: (sections es).1, (sections es).2)
  | .lineBreak units :: es => ([], (units, (sections es).1) :: (sections es).2)

def ofSections (first : List String) (rest : List (Nat × List String)) : List Emission :=
  first.map .text ++ rest.flatMap fun (units, texts) => .lineBreak units :: texts.map .text

theorem ofSections_sections : ∀ es : List Emission, ofSections (sections es).1 (sections es).2 = es
  | [] => rfl
  | .text s :: es => congrArg (Emission.text s :: ·) (ofSections_sections es)
  | .lineBreak units :: es => congrArg (Emission.lineBreak units :: ·) (ofSections_sections es)

theorem length_sections : ∀ es : List Emission, (sections es).2.length = es.countP isBreak
  | [] => rfl
  | .text s :: es => by
    rw [List.countP_cons_of_neg (by simp [isBreak])]
    exact length_sections es
  | .lineBreak units :: es => by
    rw [List.countP_cons_of_pos rfl, ← length_sections es]
    rfl

def lines (unit : String) (first : List String) (rest : List (Nat × List String)) : List String :=
  String.join first ::
    rest.map fun (units, texts) => String.join (List.replicate units unit) ++ String.join texts

theorem renderAll_eq_intercalate (l : Layout) : ∀ es : List Emission,
    renderAll l es = l.newline.intercalate (lines l.unit (sections es).1 (sections es).2)
  | [] => rfl
  | .text s :: es => by
    rw [renderAll, List.map_cons, String.join_cons, ← renderAll, renderAll_eq_intercalate l es]
    simp only [lines, sections, render, String.join_cons, String.intercalate_cons_append]
  | .lineBreak units :: es => by
    rw [renderAll, List.map_cons, String.join_cons, ← renderAll, renderAll_eq_intercalate l es]
    simp only [lines, sections, render, List.map_cons, Layout.indentation, String.join_nil,
      String.intercalate_cons_cons, String.intercalate_cons_append, String.empty_append,
      String.append_assoc]

theorem oneLine_lines {unit : String} (hu : OneLine unit) {first : List String}
    {rest : List (Nat × List String)} (h : ∀ s, text s ∈ ofSections first rest → OneLine s) :
    ∀ line ∈ lines unit first rest, OneLine line := by
  intro line hline
  rcases List.mem_cons.1 hline with rfl | hline
  · exact .join fun s hs => h s (List.mem_append_left _ (List.mem_map_of_mem hs))
  · obtain ⟨⟨units, texts⟩, hm, rfl⟩ := List.mem_map.1 hline
    refine .append (.join fun s hs => ?_) (.join fun s hs => h s (List.mem_append_right _ ?_))
    · rw [List.eq_of_mem_replicate hs]
      exact hu
    · exact List.mem_flatMap.2 ⟨_, hm, List.mem_cons_of_mem _ (List.mem_map_of_mem hs)⟩

end Emission

/-- **Lines are what stands between breaks.** In a script without long strings,
layout changes and resets, whose verbatim arguments have no line breaks, the
accepted commands emit texts and breaks. Cut at its line feeds, the source is
one piece more than there are breaks: the texts before the first break, and for
each break the indentation of its level and the texts up to the next one. -/
theorem Script.lines_of_run (s : Script) (hn : s.start.layout.newline = "\n")
    (hu : OneLine s.start.layout.unit) (h : ∀ c ∈ Step.allCommands s.steps, c.WithinLines) :
    let es := Trace.allEmissions s.run.traces
    let pieces := (s.run.final.render.split '\n').toList.map (·.copy)
    pieces.length = es.countP Emission.isBreak + 1 ∧
      ∃ first rest, es = Emission.ofSections first rest ∧
        pieces = String.join first :: rest.map fun (units, texts) =>
          String.join (List.replicate units s.start.layout.unit) ++ String.join texts := by
  intro es pieces
  have hg : Grown s.start s.run.final es := Trace.grownLaw.runAll true s.start s.steps h
  have hes := Emission.ofSections_sections es
  have hr : s.run.final.render = (String.singleton '\n').intercalate
      (Emission.lines s.start.layout.unit (Emission.sections es).1 (Emission.sections es).2) := by
    rw [hg.render, Emission.renderAll_eq_intercalate, hn]
    exact String.empty_append
  have hp : pieces =
      Emission.lines s.start.layout.unit (Emission.sections es).1 (Emission.sections es).2 := by
    show (s.run.final.render.split '\n').toList.map (·.copy) = _
    rw [hr, String.toList_split_intercalate fun line hline =>
      (Emission.oneLine_lines hu (by rw [hes]; exact hg.oneLine) line hline).not_mem]
    rfl
  refine ⟨?_, _, _, hes.symm, hp⟩
  rw [hp, Emission.lines, List.length_cons, List.length_map, Emission.length_sections]

/-- Breaks in a key and in a literal, a body that fails half way, and a blank line. -/
def literalScript : Script where
  unit := some "  "
  steps :=
    [.command (.openBlock (.function none ["x"])),
      .command .newLine,
      .command (.put (.tableKey "a\nb")),
      .command (.put (.shortString "\r\n")),
      .indented [.command .newLine, .command (.put (.token (.atom .nil))),
        .command (.put (.field "a b")), .command .newLine] false none,
      .command .newBareLine,
      .command (.closeBlock .endBlock)]

/-- Four breaks make five lines of it. -/
theorem lines_of_run_literalScript :
    literalScript.start.layout.newline = "\n" ∧ OneLine literalScript.start.layout.unit ∧
    (∀ c ∈ Step.allCommands literalScript.steps, c.WithinLines) ∧
    Trace.allEmissions literalScript.run.traces =
      [.text "function(x)", .lineBreak 1, .text "[\"a\\nb\"] = ", .text "\"\\r\\n\"",
        .lineBreak 2, .text "nil", .lineBreak 0, .lineBreak 0, .text "end"] ∧
    ((literalScript.run.final.render.split '\n').toList.map (·.copy)).length = 5 := by
  have hn : literalScript.start.layout.newline = "\n" := rfl
  have hu : OneLine literalScript.start.layout.unit := by decide
  have h : ∀ c ∈ Step.allCommands literalScript.steps, c.WithinLines := by decide
  have he : Trace.allEmissions literalScript.run.traces =
      [.text "function(x)", .lineBreak 1, .text "[\"a\\nb\"] = ", .text "\"\\r\\n\"",
        .lineBreak 2, .text "nil", .lineBreak 0, .lineBreak 0, .text "end"] := by decide +kernel
  refine ⟨hn, hu, h, he, ?_⟩
  rw [(Script.lines_of_run literalScript hn hu h).1, he]
  rfl

end LuaSource
