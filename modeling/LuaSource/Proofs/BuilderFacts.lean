/-
What the operations of a builder do to its views, and exactly when those that
can be refused are accepted. A proof about builders goes by these and opens no
operation.
-/
import LuaSource.Builder

namespace LuaSource
namespace Builder

/-! ## Views -/

@[simp] theorem level_append (b : Builder) (text : String) : (b.append text).level = b.level := rfl

@[simp] theorem layout_append (b : Builder) (text : String) :
    (b.append text).layout = b.layout := rfl

@[simp] theorem render_append (b : Builder) (text : String) :
    (b.append text).render = b.render ++ text := render_emit b _

@[simp] theorem fragments_append (b : Builder) (text : String) :
    (b.append text).fragments = b.fragments ++ [.text text] := fragments_emit b _

@[simp] theorem level_indent (b : Builder) : b.indent.level = b.level + 1 := rfl

@[simp] theorem layout_indent (b : Builder) : b.indent.layout = b.layout := rfl

@[simp] theorem render_indent (b : Builder) : b.indent.render = b.render := rfl

@[simp] theorem fragments_indent (b : Builder) : b.indent.fragments = b.fragments := rfl

@[simp] theorem level_atLevel (b : Builder) (n : Nat) : (b.atLevel n).level = n := rfl

@[simp] theorem layout_atLevel (b : Builder) (n : Nat) : (b.atLevel n).layout = b.layout := rfl

@[simp] theorem render_atLevel (b : Builder) (n : Nat) : (b.atLevel n).render = b.render := rfl

@[simp] theorem fragments_atLevel (b : Builder) (n : Nat) :
    (b.atLevel n).fragments = b.fragments := rfl

@[simp] theorem level_newLine (b : Builder) : b.newLine.level = b.level := rfl

@[simp] theorem layout_newLine (b : Builder) : b.newLine.layout = b.layout := rfl

@[simp] theorem render_newLine (b : Builder) :
    b.newLine.render = b.render ++ (b.layout.newline ++ b.layout.indentation b.level) :=
  render_emit b _

@[simp] theorem fragments_newLine (b : Builder) :
    b.newLine.fragments = b.fragments ++ [.line b.layout b.level] := fragments_emit b _

/-! ## Acceptance -/

variable {b b' : Builder}

/-- Lowering the level is the only thing that can fail in a step that goes one
level further out. -/
theorem dedent_map_eq_ok_iff {f : Builder → Builder} :
    b.dedent.map f = .ok b' ↔ ∃ n, b.level = n + 1 ∧ b' = f (b.atLevel n) := by
  unfold dedent
  cases hn : b.level with
  | zero => simp [Except.map]
  | succ n => simp [Except.map, atLevel, eq_comm]

theorem dedent_eq_ok_iff : b.dedent = .ok b' ↔ ∃ n, b.level = n + 1 ∧ b' = b.atLevel n := by
  simpa only [Except.map_id, id_eq] using dedent_map_eq_ok_iff (b := b) (f := id)

theorem newOuterLine_eq_ok_iff :
    b.newOuterLine = .ok b' ↔ ∃ n, b.level = n + 1 ∧ b' = (b.atLevel n).newLine :=
  dedent_map_eq_ok_iff

theorem newOuterLine_map_eq_ok_iff {f : Builder → Builder} :
    b.newOuterLine.map f = .ok b' ↔ ∃ n, b.level = n + 1 ∧ b' = f (b.atLevel n).newLine := by
  rw [← dedent_map_eq_ok_iff (f := fun b => f b.newLine), newOuterLine]
  cases b.dedent <;> rfl

theorem continueBlock_eq_ok_iff {br : Branch} :
    b.continueBlock br = .ok b' ↔
      ∃ n, b.level = n + 1 ∧ b' = ((b.atLevel n).newLine.append br.text).indent :=
  newOuterLine_map_eq_ok_iff

theorem closeBlock_eq_ok_iff {c : Closer} :
    b.closeBlock c = .ok b' ↔ ∃ n, b.level = n + 1 ∧ b' = (b.atLevel n).newLine.append c.text :=
  newOuterLine_map_eq_ok_iff

theorem unlessFault_eq_ok_iff {fault? : Option ArgumentFault} :
    unlessFault fault? b = .ok b' ↔ fault? = none ∧ b' = b := by
  cases fault? <;> simp [unlessFault, eq_comm]

theorem put_eq_ok_iff {p : Phrase} : b.put p = .ok b' ↔ p.fault? = none ∧ b' = b.append p.text :=
  unlessFault_eq_ok_iff

theorem openBlock_eq_ok_iff {o : Opener} :
    b.openBlock o = .ok b' ↔ o.fault? = none ∧ b' = (b.append o.text).indent :=
  unlessFault_eq_ok_iff

/-! ## Refusal -/

variable {fault : Fault}

theorem dedent_map_eq_error_iff {f : Builder → Builder} :
    b.dedent.map f = .error fault ↔ b.level = 0 ∧ fault = .levelIsZero := by
  unfold dedent
  cases b.level with
  | zero => simp [Except.map, eq_comm]
  | succ n => simp [Except.map]

theorem dedent_eq_error_iff : b.dedent = .error fault ↔ b.level = 0 ∧ fault = .levelIsZero := by
  simpa only [Except.map_id, id_eq] using dedent_map_eq_error_iff (b := b) (f := id)

theorem newOuterLine_map_eq_error_iff {f : Builder → Builder} :
    b.newOuterLine.map f = .error fault ↔ b.level = 0 ∧ fault = .levelIsZero := by
  rw [← dedent_map_eq_error_iff (f := fun b => f b.newLine), newOuterLine]
  cases b.dedent <;> rfl

theorem unlessFault_eq_error_iff {fault? : Option ArgumentFault} :
    unlessFault fault? b = .error fault ↔ ∃ f, fault? = some f ∧ fault = .badArgument f := by
  cases fault? <;> simp [unlessFault, eq_comm]

/-! ## Finishing -/

theorem finish_eq_ok_iff {text : String} : b.finish = .ok text ↔ b.level = 0 ∧ b.render = text := by
  unfold finish
  split <;> simp [*]

end Builder
end LuaSource
