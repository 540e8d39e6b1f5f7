/-
The journal as an audit trail. What a run tells the journal is what its commands tell, in
the order in which they ran, those in bodies among them: a refused command says why, a
reset says what there was before it, and no other command says anything. A body adds
nothing of its own, neither when it passes a fault on nor when it states one.

One command tells one thing at most, though each of its effects may have the journal hear
of it: of several checks only the first that finds a fault is heard, and a closer is heard
through the step that lowers the level (`Command.events_checkedEffects`). For whole runs
it is the one induction over runs (`Trace.keptLaw`), on whatever sinks.
-/
import LuaSource.Report
import LuaSource.Proofs.InPlace
import LuaSource.Proofs.RunFacts
import Mathlib.Data.List.Basic

namespace LuaSource

/-! ## What is told -/

def journalLine (message : String) : String := "luasmith: " ++ message ++ "\n"

structure Call where
  command : Command
  outcome : Outcome

/-- What a command tells the journal: why it was refused, or what there was before a
reset. -/
def Call.told (call : Call) : Option String :=
  match call.outcome.fault?, call.command with
  | some fault, c =>
    some (if c.lowers then "Rejected dedent at indentation level 0" else fault.message)
  | none, .reset =>
    some ("Reset after " ++ call.outcome.before.count.repr ++ " fragment(s) at indentation level " ++
      call.outcome.before.level.repr)
  | none, _ => none

/-- What the end of a build tells the journal. -/
def Builder.told (b : Builder) : Option String :=
  if b.level = 0 then none else some ("Finished with " ++ b.level.repr ++ " block(s) still open")

/-- What is kept of a message, if there is one, by the sink that is attached. -/
def keptBy (sink : Option Sink) (message? : Option String) : Option String :=
  if sink = some .keeping then message? else none

theorem keptBy_eq_some_iff {sink : Option Sink} {message? : Option String} {m : String} :
    keptBy sink message? = some m ↔ sink = some .keeping ∧ message? = some m := by
  unfold keptBy
  split <;> simp [*]

def Call.kept (call : Call) : Option String := keptBy call.outcome.before.sink call.told

def Builder.kept (b : Builder) : Option String := keptBy b.sink b.told

mutual

/-- The commands that ran, in the order in which they ran. Those of a body come where the
body ran. -/
def Trace.calls : Trace → List Call
  | .command c o => [⟨c, o⟩]
  | .indented _ body => Trace.allCalls body

def Trace.allCalls : List Trace → List Call
  | [] => []
  | t :: ts => t.calls ++ Trace.allCalls ts

end

namespace Report

/-- All that was written to the sinks of a script that keep what they get. -/
def captured (r : Report) : String := Trace.logs r.traces ++ r.ending.log

def told (r : Report) : List String :=
  (Trace.allCalls r.traces).filterMap Call.told ++ r.final.told.toList

/-- Of what was told, what was kept by the sink that was attached at the time. -/
def kept (r : Report) : List String :=
  (Trace.allCalls r.traces).filterMap Call.kept ++ r.final.kept.toList

end Report

theorem getD_kept (event? : Option Event) (sink : Option Sink) :
    (event?.map (·.kept sink)).getD "" =
      String.join ((keptBy sink (event?.map Event.message)).toList.map journalLine) := by
  cases event? with
  | none => cases sink with
    | none => rfl
    | some sink => cases sink <;> rfl
  | some e => cases sink with
    | none => rfl
    | some sink => cases sink with
      | refusing => rfl
      | keeping =>
        show e.line = String.join [e.line]
        simp

/-! ## Checks one by one -/

namespace Effect

variable {b : Builder} {es : List Effect}

theorem perform_checks (fs : List (Option ArgumentFault)) :
    perform b (fs.map .check ++ es) =
      match fs.findSome? id with
      | some fault => (b, some (.badArgument fault))
      | none => perform b es := by
  induction fs with
  | nil => rfl
  | cons fault? fs ih =>
    cases fault? with
    | none => exact ih
    | some fault => rfl

/-- Of several checks the journal hears of the first that finds a fault. -/
theorem events_checks (fs : List (Option ArgumentFault)) :
    events b (fs.map .check ++ es) =
      match fs.findSome? id with
      | some fault => [.rejected (.badArgument fault)]
      | none => events b es := by
  induction fs with
  | nil => rfl
  | cons fault? fs ih =>
    cases fault? with
    | none => exact ih
    | some fault => rfl

end Effect

theorem findSome?_one (fault? : Option ArgumentFault) : [fault?].findSome? id = fault? := by
  cases fault? <;> rfl

theorem findSome?_two (first second : Option ArgumentFault) :
    [first, second].findSome? id = (first <|> second) := by
  cases first <;> cases second <;> rfl

theorem Phrase.findSome?_checks (p : Phrase) : p.checks.findSome? id = p.fault? := by
  cases p with
  | defineLocal | assign => exact findSome?_two _ _
  | verbatim | token | shortString | longString | integer | float | declareLocal | returns | call |
      callMethod | field | index | tableKey | goto | label | comment => exact findSome?_one _

theorem Opener.findSome?_checks (o : Opener) : o.checks.findSome? id = o.fault? := by
  cases o with
  | forIn => exact findSome?_two _ _
  | function | localFunction | ifThen | whileDo | forRange | doBlock | repeatLoop =>
    exact findSome?_one _

namespace Command

variable {b b' : Builder} {c : Command} {fault : Fault}

theorem perform_checkedEffects (b : Builder) (c : Command) :
    Effect.perform b c.checkedEffects = Effect.perform b c.effects := by
  cases c with
  | put p =>
    rw [checkedEffects, Effect.perform_checks, p.findSome?_checks, effects]
    cases p.fault? <;> rfl
  | openBlock o =>
    rw [checkedEffects, Effect.perform_checks, o.findSome?_checks, effects]
    cases o.fault? <;> rfl
  | continueBlock | closeBlock | indent | dedent | newLine | newDeeperLine | newOuterLine |
      newBareLine | setUnit | setNewline | setSink | reset | ask => rfl

/-- What the journal hears of the effects is one event at most, that of the command. -/
theorem events_checkedEffects (b : Builder) (c : Command) :
    Effect.events b c.checkedEffects =
      match c.apply b with
      | .ok _ => (c.event? b).toList
      | .error fault => [.rejected fault] := by
  cases c with
  | put p =>
    rw [checkedEffects, Effect.events_checks, p.findSome?_checks]
    show _ = match Builder.unlessFault p.fault? _ with | .ok _ => _ | .error fault => _
    cases p.fault? <;> rfl
  | openBlock o =>
    rw [checkedEffects, Effect.events_checks, o.findSome?_checks]
    show _ = match Builder.unlessFault o.fault? _ with | .ok _ => _ | .error fault => _
    cases o.fault? <;> rfl
  | continueBlock | closeBlock | dedent | newOuterLine =>
    -- Lowering the level comes first; what comes after it is not heard of.
    cases hn : b.level <;>
      simp [checkedEffects, effects, Effect.events, Effect.event?, Effect.apply, apply, event?,
        Builder.continueBlock, Builder.closeBlock, Builder.newOuterLine, Builder.dedent, Except.map,
        hn]
  | indent | newLine | newDeeperLine | newBareLine | setUnit | setNewline | setSink | reset |
      ask => rfl

/-! ## Commands -/

theorem told_of_ok (h : c.apply b = .ok b') :
    (Call.mk c (c.run b)).told = (c.event? b).map Event.message := by
  unfold Call.told
  rw [fault?_of_ok h, run_before]
  cases c with
  | reset => rfl
  | put | openBlock | continueBlock | closeBlock | indent | dedent | newLine | newDeeperLine |
      newOuterLine | newBareLine | setUnit | setNewline | setSink | ask => rfl

/-- The fault tells whether the level was at issue, as the command does. -/
theorem told_of_error (h : c.apply b = .error fault) :
    (Call.mk c (c.run b)).told = some (Event.rejected fault).message := by
  unfold Call.told
  rw [fault?_of_error h]
  rcases apply_eq_error_iff.1 h with ⟨hl, -, rfl⟩ | ⟨f, hf, rfl⟩
  · simp only [hl, if_true]
    rfl
  · simp only [lowers_of_argumentFault? hf, Bool.false_eq_true, if_false]
    rfl

theorem map_message_events (b : Builder) (c : Command) :
    (Effect.events b c.checkedEffects).map Event.message = ((Call.mk c (c.run b)).told).toList := by
  rw [events_checkedEffects]
  cases h : c.apply b with
  | ok b' =>
    rw [told_of_ok h]
    cases c.event? b <;> rfl
  | error fault =>
    rw [told_of_error h]
    rfl

theorem log_run (b : Builder) (c : Command) :
    (c.run b).log = String.join ((Call.mk c (c.run b)).kept.toList.map journalLine) := by
  rw [Call.kept, run_before]
  cases h : c.apply b with
  | ok b' =>
    rw [told_of_ok h, ← getD_kept]
    simp only [run, h]
  | error fault =>
    have hk := getD_kept (some (.rejected fault)) b.sink
    rw [told_of_error h]
    simp only [run, h]
    exact hk

theorem sink_of_apply (hc : c.setsSink = false) (h : c.apply b = .ok b') : b'.sink = b.sink := by
  cases c with
  | setSink => cases hc
  | indent | newLine | newDeeperLine | newBareLine | setUnit | setNewline | reset | ask =>
    cases h
    rfl
  | put p =>
    obtain ⟨-, rfl⟩ := Builder.put_eq_ok_iff.1 h
    rfl
  | openBlock o =>
    obtain ⟨-, rfl⟩ := Builder.openBlock_eq_ok_iff.1 h
    rfl
  | dedent =>
    obtain ⟨n, -, rfl⟩ := Builder.dedent_eq_ok_iff.1 h
    rfl
  | newOuterLine =>
    obtain ⟨n, -, rfl⟩ := Builder.newOuterLine_eq_ok_iff.1 h
    rfl
  | continueBlock br =>
    obtain ⟨n, -, rfl⟩ := Builder.continueBlock_eq_ok_iff.1 h
    rfl
  | closeBlock cl =>
    obtain ⟨n, -, rfl⟩ := Builder.closeBlock_eq_ok_iff.1 h
    rfl

end Command

theorem Builder.log_ending (b : Builder) :
    b.ending.log = String.join (b.kept.toList.map journalLine) := by
  have hk := getD_kept (if b.level = 0 then none else some (.leftOpen b.level)) b.sink
  unfold Builder.kept Builder.told Builder.ending
  by_cases hl : b.level = 0
  · simp only [hl, if_true] at hk ⊢
    exact hk
  · simp only [hl, if_false] at hk ⊢
    exact hk

/-! ## Runs -/

namespace Trace

/-- **What is kept of a run** is what is kept of its commands, in order. -/
theorem keptLaw : RunLaw (fun _ => True)
    (fun _ t => t.outcome.log = String.join ((t.calls.filterMap Call.kept).map journalLine))
    (fun _ ts => logs ts = String.join (((allCalls ts).filterMap Call.kept).map journalLine)) where
  command b c _ := by
    have h := c.log_run b
    rw [calls, List.filterMap_cons]
    cases hk : (Call.mk c (c.run b)).kept <;> rw [hk] at h <;> exact h
  indented b body tolerant failure h := h
  nil b := rfl
  cons b t ts ht hts := by
    rw [logs_cons, ht, hts, allCalls, List.filterMap_append, List.map_append, String.join_append]

/-- Without a setter the sink of the start is attached all the time. -/
theorem sinkStays : RunLaw (fun c => c.setsSink = false)
    (fun b t => t.outcome.after.sink = b.sink ∧ ∀ call ∈ t.calls, call.outcome.before.sink = b.sink)
    (fun b ts => (final b ts).sink = b.sink ∧
      ∀ call ∈ allCalls ts, call.outcome.before.sink = b.sink) where
  command b c hc := by
    refine ⟨?_, fun call hcall => ?_⟩
    · show (c.run b).after.sink = b.sink
      cases h : c.apply b with
      | ok b' => rw [(Command.run_of_ok h).1, Command.sink_of_apply hc h]
      | error fault => rw [(Command.run_of_error h).1]
    · rw [calls, List.mem_singleton] at hcall
      rw [hcall, c.run_before]
  indented b body tolerant failure h := h
  nil b := ⟨rfl, fun _ h => by cases h⟩
  cons b t ts ht hts := by
    refine ⟨hts.1.trans ht.1, fun call hcall => ?_⟩
    rcases List.mem_append.1 hcall with hcall | hcall
    · exact ht.2 call hcall
    · exact (hts.2 call hcall).trans ht.1

end Trace

/-! ## Scripts -/

/-- On whatever sinks a script runs, what they keep are the lines of what they keep. -/
theorem Script.captured_eq_kept (s : Script) :
    s.run.captured = String.join (s.run.kept.map journalLine) := by
  have hl : Trace.logs s.run.traces =
      String.join (((Trace.allCalls s.run.traces).filterMap Call.kept).map journalLine) :=
    Trace.keptLaw.runAll true s.start s.steps fun _ _ => trivial
  have he : s.run.ending.log = String.join (s.run.final.kept.toList.map journalLine) :=
    s.run.final.log_ending
  rw [Report.captured, hl, he, Report.kept, List.map_append, String.join_append]

theorem Script.kept_eq_told {s : Script} (hs : s.sink = some .keeping)
    (h : ∀ c ∈ Step.allCommands s.steps, c.setsSink = false) : s.run.kept = s.run.told := by
  obtain ⟨hfinal, hcalls⟩ : s.run.final.sink = s.start.sink ∧
      ∀ call ∈ Trace.allCalls s.run.traces, call.outcome.before.sink = s.start.sink :=
    Trace.sinkStays.runAll true s.start s.steps h
  have hstart : s.start.sink = some .keeping := hs
  have hk : (Trace.allCalls s.run.traces).filterMap Call.kept =
      (Trace.allCalls s.run.traces).filterMap Call.told := by
    apply List.filterMap_congr
    intro call hcall
    rw [Call.kept, hcalls call hcall, hstart, keptBy, if_pos rfl]
  rw [Report.kept, Report.told, hk, Builder.kept, hfinal, hstart, keptBy, if_pos rfl]

/-- **The journal is a complete audit trail.** Whatever is checked in a command and wherever
it lowers the level, its effects have the journal hear what the command tells, and no more.
So if a sink that keeps lines is attached from the start and never replaced, what it holds in
the end is one line for each command that was refused, one for each reset, and one if the
build ended with blocks open, in the order of the run and nothing else. -/
theorem Script.captured_eq_told :
    (∀ (b : Builder) (c : Command),
      Effect.perform b c.checkedEffects = ((c.run b).after, (c.run b).fault?) ∧
        (Effect.events b c.checkedEffects).map Event.message =
          (Call.mk c (c.run b)).told.toList) ∧
    ∀ s : Script, s.sink = some .keeping → (∀ c ∈ Step.allCommands s.steps, c.setsSink = false) →
      s.run.captured = String.join (s.run.told.map journalLine) := by
  refine ⟨fun b c => ⟨?_, c.map_message_events b⟩, fun s hs h => ?_⟩
  · rw [c.perform_checkedEffects, c.perform_effects]
  · rw [s.captured_eq_kept, Script.kept_eq_told hs h]

/-- Two faults at once, a fault that two bodies pass on, a body that states one after a
reset, a branch with no block to belong to, and a loop that is never closed. -/
def auditedScript : Script where
  sink := some .keeping
  steps :=
    [.command (.put (.defineLocal [""] [])),
      .command .newBareLine,
      .indented [.indented [.command (.put (.goto "end")), .command .newLine] false none] false none,
      .indented [.command .reset] true (some "given up"),
      .command (.continueBlock .otherwise),
      .command (.openBlock .repeatLoop)]

/-- Each of them is told once, and what the bodies say of themselves is not. -/
theorem captured_eq_told_auditedScript :
    auditedScript.sink = some .keeping ∧
      (∀ c ∈ Step.allCommands auditedScript.steps, c.setsSink = false) ∧
      auditedScript.run.captured =
        "luasmith: Invalid argument: Local names must not be empty\n" ++
        "luasmith: Invalid argument: Label must be a valid Lua name, got 'end'\n" ++
        "luasmith: Reset after 1 fragment(s) at indentation level 1\n" ++
        "luasmith: Rejected dedent at indentation level 0\n" ++
        "luasmith: Finished with 1 block(s) still open\n" := by
  have hs : auditedScript.sink = some .keeping := rfl
  have h : ∀ c ∈ Step.allCommands auditedScript.steps, c.setsSink = false := by decide
  refine ⟨hs, h, ?_⟩
  rw [Script.captured_eq_told.2 auditedScript hs h]
  decide +kernel

end LuaSource
