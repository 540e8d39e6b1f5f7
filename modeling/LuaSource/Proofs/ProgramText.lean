/-
A builder that is given the commands of a program tree writes the text of the
tree. The text is a function of the tree, the layout and a depth; the builder
knows no tree and has one counter for the depth. That the two agree in every
nesting is one triple for each kind of command and one for putting two lists of
commands together, carried through the tree: a statement ends at the level at
which it started, and what follows a body, which starts one level deeper, ends
there too.
-/
import LuaSource.Program
import LuaSource.Report
import LuaSource.Proofs.BuilderFacts
import LuaSource.Proofs.RunFacts

namespace LuaSource

/-- Every builder of layout `l` at level `m` accepts all of `cs`, writes `text`
for them and is then at level `n`, its layout as before. -/
def Writes (l : Layout) (m : Nat) (cs : List Command) (text : String) (n : Nat) : Prop :=
  ∀ b : Builder, b.layout = l → b.level = m →
    ∃ b', Accepts b cs b' ∧ b'.layout = l ∧ b'.level = n ∧ b'.render = b.render ++ text

namespace Writes

variable {l : Layout} {k m n : Nat} {cs cs' : List Command} {s t : String}

theorem nil : Writes l n [] "" n := fun b hl hn => ⟨b, .nil, hl, hn, by rw [String.append_empty]⟩

theorem append (h : Writes l k cs s m) (h' : Writes l m cs' t n) :
    Writes l k (cs ++ cs') (s ++ t) n := by
  intro b hl hk
  obtain ⟨b₁, ha₁, hl₁, hm₁, hr₁⟩ := h b hl hk
  obtain ⟨b₂, ha₂, hl₂, hn₂, hr₂⟩ := h' b₁ hl₁ hm₁
  exact ⟨b₂, ha₁.append ha₂, hl₂, hn₂, by rw [hr₂, hr₁, String.append_assoc]⟩

theorem newLine : Writes l n [.newLine] (l.lineStart n) n := by
  intro b hl hn
  subst hl hn
  exact ⟨b.newLine, .cons rfl .nil, rfl, rfl, b.render_newLine⟩

theorem newDeeperLine : Writes l n [.newDeeperLine] (l.lineStart (n + 1)) (n + 1) := by
  intro b hl hn
  subst hl hn
  exact ⟨b.indent.newLine, .cons rfl .nil, rfl, rfl, b.indent.render_newLine⟩

theorem newOuterLine : Writes l (n + 1) [.newOuterLine] (l.lineStart n) n := by
  intro b hl hn
  subst hl
  exact ⟨_, .cons (Builder.newOuterLine_eq_ok_iff.2 ⟨n, hn, rfl⟩) .nil, rfl, rfl,
    (b.atLevel n).render_newLine⟩

theorem put {p : Phrase} (h : p.fault? = none) : Writes l n [.put p] p.text n := by
  intro b hl hn
  subst hl hn
  exact ⟨b.append p.text, .cons (Builder.put_eq_ok_iff.2 ⟨h, rfl⟩) .nil, rfl, rfl, by simp⟩

theorem verbatim (text : String) : Writes l n [.put (.verbatim text)] text n := put rfl

theorem openBlock {o : Opener} (h : o.fault? = none) : Writes l n [.openBlock o] o.text (n + 1) := by
  intro b hl hn
  subst hl hn
  exact ⟨_, .cons (Builder.openBlock_eq_ok_iff.2 ⟨h, rfl⟩) .nil, rfl, rfl, by simp⟩

theorem continueBlock (br : Branch) :
    Writes l (n + 1) [.continueBlock br] (l.lineStart n ++ br.text) (n + 1) := by
  intro b hl hn
  subst hl
  refine ⟨_, .cons (Builder.continueBlock_eq_ok_iff.2 ⟨n, hn, rfl⟩) .nil, rfl, rfl, ?_⟩
  simp [Layout.lineStart, String.append_assoc]

theorem closeBlock (c : Closer) :
    Writes l (n + 1) [.closeBlock c] (l.lineStart n ++ c.text) n := by
  intro b hl hn
  subst hl
  refine ⟨_, .cons (Builder.closeBlock_eq_ok_iff.2 ⟨n, hn, rfl⟩) .nil, rfl, rfl, ?_⟩
  simp [Layout.lineStart, String.append_assoc]

end Writes

/-! ## Trees -/

mutual

theorem Stmt.writes (l : Layout) (n : Nat) : ∀ s : Stmt, s.accepted = true →
    Writes l n s.commands (s.text l n) n
  | .line text, _ => Writes.newLine.append (Writes.verbatim text)
  | .block opener body tail, h => by
    simp only [Stmt.accepted, Bool.and_eq_true, Option.isNone_iff_eq_none] at h
    have hb := Stmt.allWrites l (n + 1) body h.1.2
    have ht := Tail.writes l n tail h.2
    have := ((Writes.newLine.append (Writes.openBlock h.1.1)).append hb).append ht
    rwa [List.append_assoc] at this

theorem Tail.writes (l : Layout) (n : Nat) : ∀ t : Tail, t.accepted = true →
    Writes l (n + 1) t.commands (t.text l n) n
  | .close closer, _ => Writes.closeBlock closer
  | .branch branch body tail, h => by
    simp only [Tail.accepted, Bool.and_eq_true] at h
    have hb := Stmt.allWrites l (n + 1) body h.1
    have ht := Tail.writes l n tail h.2
    have := ((Writes.continueBlock branch).append hb).append ht
    rwa [List.append_assoc] at this

theorem Stmt.allWrites (l : Layout) (n : Nat) : ∀ ss : List Stmt, Stmt.allAccepted ss = true →
    Writes l n (Stmt.allCommands ss) (Stmt.allText l n ss) n
  | [], _ => .nil
  | s :: ss, h => by
    simp only [Stmt.allAccepted, Bool.and_eq_true] at h
    exact (Stmt.writes l n s h.1).append (Stmt.allWrites l n ss h.2)

end

/-! ## Runs -/

def Stmt.steps (ss : List Stmt) : List Step := (Stmt.allCommands ss).map .command

theorem Stmt.runAll_steps {ss : List Stmt} (h : Stmt.allAccepted ss = true) (tolerant : Bool)
    (b : Builder) :
    let ts := Step.runAll tolerant b (Stmt.steps ss)
    ts.length = (Stmt.steps ss).length ∧ (∀ t ∈ ts, t.outcome.failed = false) ∧
      (Trace.final b ts).level = b.level ∧ (Trace.final b ts).layout = b.layout ∧
      (Trace.final b ts).render = b.render ++ Stmt.allText b.layout b.level ss := by
  obtain ⟨b', ha, hl, hn, hr⟩ := Stmt.allWrites b.layout b.level ss h b rfl rfl
  obtain ⟨hc, hf, rfl⟩ := ha.runAll tolerant
  exact ⟨by rw [Stmt.steps, hc, List.length_map], hf, hn, hl, hr⟩

/-- **The builder writes the tree.** From any builder the steps of a program all
run and none fails; they add the text of the tree, at the level and in the
layout of that builder, and leave both as they were. A script of them ends
well, and what it gives is the text. -/
theorem Stmt.run_steps (ss : List Stmt) (h : Stmt.allAccepted ss = true) :
    (∀ (tolerant : Bool) (b : Builder),
      let ts := Step.runAll tolerant b (Stmt.steps ss)
      ts.length = (Stmt.steps ss).length ∧ (∀ t ∈ ts, t.outcome.failed = false) ∧
        (Trace.final b ts).level = b.level ∧ (Trace.final b ts).layout = b.layout ∧
        (Trace.final b ts).render = b.render ++ Stmt.allText b.layout b.level ss) ∧
      ∀ (unit newline : Option String) (sink : Option Sink),
        let script : Script := ⟨unit, newline, sink, Stmt.steps ss⟩
        script.run.ending.verdict = .ok (Stmt.allText script.start.layout 0 ss) := by
  refine ⟨Stmt.runAll_steps h, fun unit newline sink => ?_⟩
  intro script
  obtain ⟨-, -, hn, -, hr⟩ := Stmt.runAll_steps h true script.start
  have hs : script.start.level = 0 := rfl
  have he : script.start.render = "" := rfl
  rw [hs] at hn
  rw [hs, he, String.empty_append] at hr
  show (Trace.final script.start _).finish = _
  rw [Builder.finish, if_pos hn, hr]

/-- A function with a chain of branches in it, one of them empty, and a loop that
closes with its condition. -/
def sampleProgram : List Stmt :=
  [.block (.function (some "f") ["x"])
      [.block (.ifThen "x > 0") [.line "return 1"]
        (.branch (.elseIf "x < 0")
          [.block .repeatLoop [.line "x = x + 1"] (.close (.untilHolds "x == 0"))]
          (.branch .otherwise [] (.close .endBlock)))]
      (.close .endBlock),
    .line "return f"]

theorem run_steps_sampleProgram :
    Stmt.allAccepted sampleProgram = true ∧
      (Script.run ⟨some "  ", none, none, Stmt.steps sampleProgram⟩).ending.verdict =
        .ok ("\nfunction f(x)\n  if x > 0 then\n    return 1\n  elseif x < 0 then\n    repeat" ++
          "\n      x = x + 1\n    until x == 0\n  else\n  end\nend\nreturn f") :=
  ⟨by decide, ((Stmt.run_steps sampleProgram (by decide)).2 (some "  ") none none).trans
    (congrArg Except.ok (by decide +kernel))⟩

end LuaSource
