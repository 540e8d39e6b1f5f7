/-
What refuses a step. A command has demands, of its arguments or of the level, in an order. It is
refused for the first that is not met, and in no other case. The list of demands is written here
once more for each command, next to the checks that the command does, together with the words
for a demand that is not met.

Nothing else about the builder decides: of two runs of the same steps, on builders that have no
more than the level in common, each step of the one is refused just if it is in the other, and
for the same fault. For a command that is the demands again; for a whole run it is that the
levels stay together as well, since the verdicts do.
-/
import LuaSource.Proofs.FailingSteps
import LuaSource.Proofs.LevelLedger
import LuaSource.Proofs.SideBySide

namespace LuaSource

/-! ## Demands -/

/-- What a fault is about, as far as a caller can tell faults apart. -/
inductive Ground
  | level
  | argument
  | openBlocks
  deriving DecidableEq, Repr

/-- A refusal as it is given out: its ground and its words. -/
structure Refusal where
  ground : Ground
  message : String
  deriving DecidableEq, Repr

def Fault.refusal (fault : Fault) : Refusal where
  ground :=
    match fault with
    | .levelIsZero => .level
    | .badArgument _ => .argument
    | .unclosed _ => .openBlocks
  message := fault.message

/-- What has to be so for a command to be carried out: a level to go back from, an argument that
is a name, one that is not empty, a list that is not. -/
inductive Demand
  | inside
  | name (what given : String)
  | text (what given : String)
  | element (what : String) (items : List String)
  deriving DecidableEq, Repr

namespace Demand

def met (level : Nat) : Demand → Bool
  | .inside => level ≠ 0
  | .name _ given => isName given
  | .text _ given => given ≠ ""
  | .element _ items => items ≠ []

def refusal : Demand → Refusal
  | .inside => ⟨.level, "Cannot dedent: indentation level is already 0"⟩
  | .name what given =>
    ⟨.argument, "Invalid argument: " ++ (what ++ " must be a valid Lua name, got '" ++ given ++ "'")⟩
  | .text what _ => ⟨.argument, "Invalid argument: " ++ (what ++ " must not be empty")⟩
  | .element what _ =>
    ⟨.argument, "Invalid argument: " ++ (what ++ " must contain at least one element")⟩

/-- The demands on a list of names: an element, and then each of them not empty. -/
def texts (what : String) (items : List String) : List Demand :=
  .element what items :: items.map (.text what)

def firstUnmet? (level : Nat) (ds : List Demand) : Option Refusal :=
  (ds.find? fun d => !d.met level).map refusal

end Demand

namespace Command

/-- The demands of a command, in the order in which they are looked at. -/
def demands : Command → List Demand
  | .dedent | .newOuterLine | .closeBlock _ | .continueBlock _ => [.inside]
  | .openBlock (.function (some name) _) => [.text "Function name" name]
  | .openBlock (.localFunction name _) => [.name "Local function name" name]
  | .openBlock (.forRange var _ _ _) => [.name "Loop variable" var]
  | .openBlock (.forIn names exprs) =>
    Demand.texts "Loop variables" names ++ [.element "Loop expressions" exprs]
  | .put (.declareLocal names) => Demand.texts "Local names" names
  | .put (.defineLocal names values) =>
    Demand.texts "Local names" names ++ [.element "Local values" values]
  | .put (.assign targets values) =>
    Demand.texts "Assignment targets" targets ++ [.element "Assignment values" values]
  | .put (.callMethod _ method _) => [.name "Method name" method]
  | .put (.field name) => [.name "Field name" name]
  | .put (.goto target) => [.name "Label" target]
  | .put (.label name) => [.name "Label" name]
  | _ => []

/-- Whether a command has an argument that it cannot do with. -/
def Faulty : Command → Prop
  | .openBlock (.localFunction name _) | .openBlock (.forRange name _ _ _)
  | .put (.callMethod _ name _) | .put (.field name) | .put (.goto name) | .put (.label name) =>
    isName name = false
  | .openBlock (.function (some name) _) => name = ""
  | .put (.declareLocal names) => names = [] ∨ "" ∈ names
  | .openBlock (.forIn names values) | .put (.defineLocal names values)
  | .put (.assign names values) => names = [] ∨ "" ∈ names ∨ values = []
  | _ => False

end Command

/-! ## The checks look at the demands -/

def ArgumentFault.refusal (fault : ArgumentFault) : Refusal := (Fault.badArgument fault).refusal

namespace Demand

variable {level : Nat}

theorem firstUnmet?_append (ds ds' : List Demand) :
    firstUnmet? level (ds ++ ds') = (firstUnmet? level ds <|> firstUnmet? level ds') := by
  rw [firstUnmet?, List.find?_append, firstUnmet?, firstUnmet?]
  cases ds.find? fun d => !d.met level <;> rfl

theorem firstUnmet?_singleton (d : Demand) :
    firstUnmet? level [d] = if d.met level then none else some d.refusal := by
  cases h : d.met level <;> simp [firstUnmet?, h]

theorem firstUnmet?_name (role : Role) (given : String) :
    firstUnmet? level [.name role.text given] = (faultInName role given).map ArgumentFault.refusal := by
  rw [firstUnmet?_singleton, faultInName, apply_ite (Option.map _)]
  rfl

theorem firstUnmet?_text (role : Role) (given : String) :
    firstUnmet? level [.text role.text given] = (faultInText role given).map ArgumentFault.refusal := by
  rw [firstUnmet?_singleton, faultInText]
  by_cases h : given = ""
  · subst h
    rfl
  · simp [met, h]

theorem firstUnmet?_element (role : Role) (items : List String) :
    firstUnmet? level [.element role.text items] =
      (faultInList role items).map ArgumentFault.refusal := by
  rw [firstUnmet?_singleton, faultInList]
  cases items with
  | nil => rfl
  | cons item items => simp [met]

theorem firstUnmet?_map_text (role : Role) : ∀ items : List String,
    firstUnmet? level (items.map (.text role.text)) =
      (items.findSome? (faultInText role)).map ArgumentFault.refusal
  | [] => rfl
  | item :: items => by
    rw [List.map_cons, ← List.singleton_append, firstUnmet?_append, firstUnmet?_text,
      firstUnmet?_map_text role items, List.findSome?_cons]
    cases faultInText role item <;> rfl

theorem firstUnmet?_texts (role : Role) (items : List String) :
    firstUnmet? level (texts role.text items) =
      (faultInTexts role items).map ArgumentFault.refusal := by
  rw [texts, ← List.singleton_append, firstUnmet?_append, firstUnmet?_element,
    firstUnmet?_map_text, faultInTexts]
  cases faultInList role items <;> rfl

theorem firstUnmet?_texts_append (role role' : Role) (items items' : List String) :
    firstUnmet? level (texts role.text items ++ [.element role'.text items']) =
      (faultInTexts role items <|> faultInList role' items').map ArgumentFault.refusal := by
  rw [firstUnmet?_append, firstUnmet?_texts, firstUnmet?_element]
  cases faultInTexts role items <;> rfl

end Demand

namespace Command

theorem firstUnmet?_demands_of_lowers {c : Command} (h : c.lowers = true) (level : Nat) :
    Demand.firstUnmet? level c.demands =
      if level = 0 then some Fault.levelIsZero.refusal else none := by
  have hd : c.demands = [.inside] := by
    cases c with
    | dedent | newOuterLine | closeBlock | continueBlock => rfl
    | put | openBlock | indent | newLine | newDeeperLine | newBareLine | setUnit | setNewline |
        setSink | reset | ask => cases h
  rw [hd]
  cases level <;> rfl

theorem firstUnmet?_demands_of_not_lowers {c : Command} (h : c.lowers = false) (level : Nat) :
    Demand.firstUnmet? level c.demands = c.argumentFault?.map ArgumentFault.refusal := by
  cases c with
  | dedent | newOuterLine | closeBlock | continueBlock => cases h
  | indent | newLine | newDeeperLine | newBareLine | setUnit | setNewline | setSink | reset | ask =>
    rfl
  | openBlock o =>
    cases o with
    | function name params =>
      cases name with
      | none => rfl
      | some name => exact Demand.firstUnmet?_text .functionName name
    | localFunction name params => exact Demand.firstUnmet?_name .localFunctionName name
    | forRange var start stop step => exact Demand.firstUnmet?_name .loopVariable var
    | forIn names exprs =>
      exact Demand.firstUnmet?_texts_append .loopVariables .loopExpressions names exprs
    | ifThen | whileDo | doBlock | repeatLoop => rfl
  | put p =>
    cases p with
    | declareLocal names => exact Demand.firstUnmet?_texts .localNames names
    | defineLocal names values =>
      exact Demand.firstUnmet?_texts_append .localNames .localValues names values
    | assign targets values =>
      exact Demand.firstUnmet?_texts_append .assignmentTargets .assignmentValues targets values
    | callMethod object method args => exact Demand.firstUnmet?_name .methodName method
    | field name => exact Demand.firstUnmet?_name .fieldName name
    | goto target => exact Demand.firstUnmet?_name .label target
    | label name => exact Demand.firstUnmet?_name .label name
    | verbatim | token | shortString | longString | integer | float | returns | call | index |
        tableKey | comment => rfl

variable {b b' : Builder} {c : Command}

/-- The fault of a command is settled by its arguments and the level. -/
theorem fault?_run (b : Builder) (c : Command) :
    (c.run b).fault? =
      if c.lowers then (if b.level = 0 then some .levelIsZero else none)
      else c.argumentFault?.map .badArgument := by
  refine Option.ext fun fault => ?_
  rw [fault?_run_eq_some_iff, apply_eq_error_iff]
  cases hl : c.lowers with
  | false => cases c.argumentFault? <;> simp [eq_comm]
  | true =>
    -- What goes outward has no arguments that are looked at.
    have ha : c.argumentFault? = none := Option.eq_none_iff_forall_ne_some.2 fun f hf => by
      rw [lowers_of_argumentFault? hf] at hl
      cases hl
    by_cases hz : b.level = 0 <;> simp [ha, hz, eq_comm]

/-- **A command is refused for its first unmet demand.** -/
theorem refusal_run (b : Builder) (c : Command) :
    (c.run b).fault?.map Fault.refusal = Demand.firstUnmet? b.level c.demands := by
  rw [fault?_run]
  cases hl : c.lowers with
  | true =>
    rw [firstUnmet?_demands_of_lowers hl, if_pos rfl]
    split <;> rfl
  | false =>
    rw [firstUnmet?_demands_of_not_lowers hl, if_neg Bool.false_ne_true, Option.map_map]
    rfl

end Command

/-! ## Faulty arguments -/

namespace Demand

variable {level : Nat}

theorem firstUnmet?_eq_some_iff {ds : List Demand} :
    (∃ r, firstUnmet? level ds = some r) ↔ ∃ d ∈ ds, d.met level = false := by
  rw [← Option.isSome_iff_exists, firstUnmet?, Option.isSome_map, List.find?_isSome]
  simp

theorem exists_unmet_texts {what : String} {items : List String} :
    (∃ d ∈ texts what items, d.met level = false) ↔ items = [] ∨ "" ∈ items := by
  simp [texts, met]

theorem exists_unmet_texts_append {what what' : String} {items items' : List String} :
    (∃ d ∈ texts what items ++ [.element what' items'], d.met level = false) ↔
      items = [] ∨ "" ∈ items ∨ items' = [] := by
  simp only [List.mem_append, or_and_right, exists_or, exists_unmet_texts, or_assoc]
  simp [met]

end Demand

theorem Command.exists_unmet_demand {level : Nat} (c : Command) :
    (∃ d ∈ c.demands, d.met level = false) ↔ c.Faulty ∨ (c.lowers = true ∧ level = 0) := by
  cases c with
  | dedent | newOuterLine | closeBlock | continueBlock => simp [demands, Faulty, lowers, Demand.met]
  | indent | newLine | newDeeperLine | newBareLine | setUnit | setNewline | setSink | reset | ask =>
    simp [demands, Faulty, lowers]
  | openBlock o =>
    cases o with
    | function name params => cases name <;> simp [demands, Faulty, lowers, Demand.met]
    | localFunction | forRange => simp [demands, Faulty, lowers, Demand.met]
    | forIn =>
      simp only [Faulty, lowers, Bool.false_eq_true, false_and, or_false]
      exact Demand.exists_unmet_texts_append
    | ifThen | whileDo | doBlock | repeatLoop => simp [demands, Faulty, lowers]
  | put p =>
    cases p with
    | declareLocal =>
      simp only [Faulty, lowers, Bool.false_eq_true, false_and, or_false]
      exact Demand.exists_unmet_texts
    | defineLocal | assign =>
      simp only [Faulty, lowers, Bool.false_eq_true, false_and, or_false]
      exact Demand.exists_unmet_texts_append
    | callMethod | field | goto | label => simp [demands, Faulty, lowers, Demand.met]
    | verbatim | token | shortString | longString | integer | float | returns | call | index |
        tableKey | comment => simp [demands, Faulty, lowers]

theorem Outcome.failed_eq_true_iff {o : Outcome} :
    o.failed = true ↔ ∃ r, o.fault?.map Fault.refusal = some r := by
  rw [failed_eq_isSome, ← Option.isSome_iff_exists, Option.isSome_map]

/-- A command fails if it lacks an argument that it cannot do without, or a level to go back
from. -/
theorem Command.failed_run_iff (b : Builder) (c : Command) :
    (c.run b).failed = true ↔ c.Faulty ∨ (c.lowers = true ∧ b.level = 0) := by
  rw [Outcome.failed_eq_true_iff, refusal_run, Demand.firstUnmet?_eq_some_iff, exists_unmet_demand]

/-! ## Builders at one level -/

/-- The builders stand at one level. Nothing else about them has to agree. -/
def Builder.SameLevel (b b' : Builder) : Prop := b'.level = b.level

namespace Builder.SameLevel

theorem command {b b' : Builder} (h : b.SameLevel b') (c : Command) :
    (c.run b).Alike SameLevel (c.run b') := by
  have hf : (c.run b').fault? = (c.run b).fault? := by
    rw [Command.fault?_run, Command.fault?_run, h]
  have hfail : (c.run b').failed = (c.run b).failed := by
    rw [Outcome.failed_eq_isSome, Outcome.failed_eq_isSome, hf]
  refine ⟨?_, ?_, hf⟩
  · rwa [Command.run_before, Command.run_before]
  · -- What the level becomes is told by the level and by whether the command was refused.
    have hb := Trace.counted_command b c
    have hb' := Trace.counted_command b' c
    rw [Trace.counted] at hb hb'
    rw [hfail, h, hb] at hb'
    exact (Int.ofNat_inj.1 hb').symm

mutual

theorem run {b b' : Builder} (h : b.SameLevel b') : ∀ s : Step,
    Trace.Alike SameLevel (s.run b) (s.run b')
  | .command c => .command (h.command c)
  | .indented body tolerant failure => by
    have hin : b.indent.SameLevel b'.indent := congrArg (· + 1) h
    have hb := hin.runAll tolerant body
    exact .indented ⟨h, h, hb.fault?_eq rfl rfl⟩ hb

/-- Steps keep builders at one level, since they are refused on both or on neither. -/
theorem runAll {b b' : Builder} (h : b.SameLevel b') (tolerant : Bool) : ∀ ss : List Step,
    Trace.AllAlike SameLevel (Step.runAll tolerant b ss) (Step.runAll tolerant b' ss)
  | [] => .nil
  | s :: ss => by
    have ht := h.run s
    rw [Step.runAll, Step.runAll, ht.outcome.failed]
    split
    · exact .cons ht .nil
    · exact .cons ht (ht.outcome.after.runAll tolerant ss)

end

end Builder.SameLevel

/-- **Refusals go by arguments and level.** A command fails just if it lacks an argument that it
cannot do without, or goes outward at level zero, and then with the words for the first of its
demands that is not met. A step in general fails by the rules, so a body does with the fault of
its first failing step. Builders that have no more than the level in common refuse the same
steps for the same faults, at the top and in bodies. -/
theorem Step.refused_exactly (b : Builder) :
    (∀ c : Command,
      ((c.run b).failed = true ↔ c.Faulty ∨ (c.lowers = true ∧ b.level = 0)) ∧
        (c.run b).fault?.map Fault.refusal = Demand.firstUnmet? b.level c.demands) ∧
      (∀ (s : Step) (fault : Fault),
        (s.run b).outcome.fault? = some fault ↔ ∃ m, Step.Fails b s m fault) ∧
      ∀ b' : Builder, b'.level = b.level → ∀ (tolerant : Bool) (ss : List Step),
        Trace.AllAlike Builder.SameLevel (runAll tolerant b ss) (runAll tolerant b' ss) := by
  refine ⟨fun c => ⟨c.failed_run_iff b, c.refusal_run b⟩, fun s fault => fault?_eq_some_iff, ?_⟩
  intro b' h tolerant ss
  have hb : b.SameLevel b' := h
  exact hb.runAll tolerant ss

/-- Several faults in one command, bodies that a step outward and a stated fault end, and a
body that goes on after failures and resets. -/
def refusedSteps : List Step :=
  [.command (.put (.defineLocal ["x", ""] [])),
    .indented [.command .dedent, .command (.closeBlock .endBlock), .command .newLine] false none,
    .indented [.command (.put (.goto "end")), .command .reset] true (some "nothing to do"),
    .command (.openBlock (.forIn [] [])),
    .command .newDeeperLine,
    .command .dedent]

theorem refused_exactly_refusedSteps :
    let plain : Builder := {}
    let used : Builder := ⟨#[.text "return"], 0, ⟨"\t", "\r\n"⟩, some .refusing⟩
    used.level = plain.level ∧
      (Step.runAll true plain refusedSteps).map (·.outcome.fault?.map Fault.refusal) =
        [some ⟨.argument, "Invalid argument: Local names must not be empty"⟩,
          some ⟨.level, "Cannot dedent: indentation level is already 0"⟩,
          some ⟨.argument, "Invalid argument: nothing to do"⟩,
          some ⟨.argument, "Invalid argument: Loop variables must contain at least one element"⟩,
          none, none] ∧
      Trace.AllAlike Builder.SameLevel (Step.runAll true plain refusedSteps)
        (Step.runAll true used refusedSteps) := by
  intro plain used
  exact ⟨rfl, by decide +kernel,
    (Step.refused_exactly plain).2.2 used rfl true refusedSteps⟩

end LuaSource
