/-
The lines of the journal. A message is written as one line, and what a caller hands over
comes into a message in one place only: a text that is refused as a name is echoed as it
is. A line feed in it ends the line early, and what follows it in the name stands at the
start of a line of the journal, whatever it says.

So the journal has one line for each message just if no name that it echoes has a line feed
(`Script.isJournal_captured_iff`). All other messages are free of them: roles and reasons
are fixed texts, and levels and counts are digits (`Call.newline_mem_told_iff`).
-/
import LuaSource.Proofs.AuditTrail
import LuaSource.Proofs.OneLine

namespace LuaSource

/-! ## Texts of lines -/

/-- `n` lines of a journal: each begins as one does, and the line feed at its end is the only
one in it. -/
def IsJournal (text : String) (n : Nat) : Prop :=
  ∃ lines : List String, lines.length = n ∧
    (∀ line ∈ lines, "luasmith: ".toList <+: line.toList ∧ '\n' ∉ line.toList) ∧
    text = String.join (lines.map (· ++ "\n"))

/-- A line feed for each line, and those inside the lines. -/
theorem count_join_lines (lines : List String) :
    (String.join (lines.map (· ++ "\n"))).toList.count '\n' =
      lines.length + (String.join lines).toList.count '\n' := by
  induction lines with
  | nil => rfl
  | cons line lines ih =>
    have hline : (line ++ "\n").toList.count '\n' = line.toList.count '\n' + 1 := by simp
    rw [List.map_cons, String.join_cons, String.toList_append, List.count_append, hline, ih,
      List.length_cons, String.join_cons, String.toList_append, List.count_append]
    omega

theorem count_join_eq_zero_iff {lines : List String} :
    (String.join lines).toList.count '\n' = 0 ↔ ∀ line ∈ lines, '\n' ∉ line.toList := by
  simp [List.count_eq_zero]

theorem IsJournal.count {text : String} {n : Nat} (h : IsJournal text n) :
    text.toList.count '\n' = n := by
  obtain ⟨lines, rfl, hlines, rfl⟩ := h
  have hz := count_join_eq_zero_iff.2 fun line hline => (hlines line hline).2
  rw [count_join_lines, hz, Nat.add_zero]

/-- What was written message by message is so many lines just if no message holds a line
feed. -/
theorem isJournal_join_iff (messages : List String) :
    IsJournal (String.join (messages.map journalLine)) messages.length ↔
      ∀ m ∈ messages, '\n' ∉ m.toList := by
  have hjoin : messages.map journalLine = (messages.map ("luasmith: " ++ ·)).map (· ++ "\n") := by
    rw [List.map_map]
    rfl
  have hfeed (m : String) : '\n' ∈ ("luasmith: " ++ m).toList ↔ '\n' ∈ m.toList := by simp
  rw [hjoin]
  constructor
  · intro h m hm
    have hc := h.count
    rw [count_join_lines, List.length_map] at hc
    have hz : (String.join (messages.map ("luasmith: " ++ ·))).toList.count '\n' = 0 := by omega
    rw [← hfeed m]
    exact count_join_eq_zero_iff.1 hz _ (List.mem_map_of_mem hm)
  · intro h
    refine ⟨messages.map ("luasmith: " ++ ·), List.length_map _, fun line hline => ?_, rfl⟩
    obtain ⟨m, hm, rfl⟩ := List.mem_map.1 hline
    rw [hfeed m, String.toList_append]
    exact ⟨List.prefix_append _ _, h m hm⟩

/-! ## Faults -/

section

variable (role : Role) (reason : String)

theorem faultInName_ne_stated (name : String) : faultInName role name ≠ some (.stated reason) := by
  unfold faultInName
  split <;> simp

theorem faultInText_ne_stated (text : String) : faultInText role text ≠ some (.stated reason) := by
  unfold faultInText
  split <;> simp

theorem faultInList_ne_stated (items : List String) :
    faultInList role items ≠ some (.stated reason) := by
  unfold faultInList
  split <;> simp

theorem orElse_ne_stated {first second : Option ArgumentFault}
    (h : first ≠ some (.stated reason)) (h' : second ≠ some (.stated reason)) :
    (first <|> second) ≠ some (.stated reason) := by
  cases first with
  | none => exact h'
  | some fault => exact h

theorem faultInTexts_ne_stated (texts : List String) :
    faultInTexts role texts ≠ some (.stated reason) := by
  refine orElse_ne_stated reason (faultInList_ne_stated role reason texts) fun h => ?_
  obtain ⟨text, -, ht⟩ := List.exists_of_findSome?_eq_some h
  exact faultInText_ne_stated role reason text ht

theorem Phrase.fault?_ne_stated (p : Phrase) : p.fault? ≠ some (.stated reason) := by
  cases p with
  | declareLocal names => exact faultInTexts_ne_stated _ _ _
  | defineLocal names values =>
    exact orElse_ne_stated _ (faultInTexts_ne_stated _ _ _) (faultInList_ne_stated _ _ _)
  | assign targets values =>
    exact orElse_ne_stated _ (faultInTexts_ne_stated _ _ _) (faultInList_ne_stated _ _ _)
  | callMethod | field | goto | label => exact faultInName_ne_stated _ _ _
  | verbatim | token | shortString | longString | integer | float | returns | call | index |
      tableKey | comment => simp [fault?]

theorem Opener.fault?_ne_stated (o : Opener) : o.fault? ≠ some (.stated reason) := by
  cases o with
  | function name params =>
    cases name with
    | none => simp [fault?]
    | some name => exact faultInText_ne_stated _ _ _
  | localFunction | forRange => exact faultInName_ne_stated _ _ _
  | forIn names exprs =>
    exact orElse_ne_stated _ (faultInTexts_ne_stated _ _ _) (faultInList_ne_stated _ _ _)
  | ifThen | whileDo | doBlock | repeatLoop => simp [fault?]

/-- A reason in a caller's own words is found in no argument. -/
theorem Command.argumentFault?_ne_stated (c : Command) :
    c.argumentFault? ≠ some (.stated reason) := by
  cases c with
  | put p => exact p.fault?_ne_stated reason
  | openBlock o => exact o.fault?_ne_stated reason
  | continueBlock | closeBlock | indent | dedent | newLine | newDeeperLine | newOuterLine |
      newBareLine | setUnit | setNewline | setSink | reset | ask => simp [argumentFault?]

end

/-! ## Messages -/

theorem Role.newline_not_mem_text (role : Role) : '\n' ∉ role.text.toList := by
  cases role <;> decide

theorem oneLine_repr (n : Nat) : OneLine n.repr := by
  rw [OneLine, Nat.toList_repr]
  exact Decimal.free_toDigits n

/-- Of what is said of arguments, only an echoed name can hold a line feed. -/
theorem ArgumentFault.newline_mem_text_iff {f : ArgumentFault} (h : ∀ reason, f ≠ .stated reason) :
    '\n' ∈ f.text.toList ↔ ∃ role given, f = .notAName role given ∧ '\n' ∈ given.toList := by
  cases f with
  | notAName role given => simp [text, role.newline_not_mem_text]
  | noElements role => simp [text, role.newline_not_mem_text]
  | emptyText role => simp [text, role.newline_not_mem_text]
  | stated reason => exact absurd rfl (h reason)

theorem Command.newline_not_mem_event {b : Builder} {c : Command} {e : Event}
    (h : c.event? b = some e) : '\n' ∉ e.message.toList := by
  cases c with
  | reset =>
    cases h
    have hcount : OneLine ("Reset after " ++ b.count.repr) :=
      .append (by decide) (oneLine_repr _)
    have hmessage : OneLine (Event.reset b.count b.level).message :=
      .append (.append hcount (by decide)) (oneLine_repr _)
    exact hmessage.not_mem
  | put | openBlock | continueBlock | closeBlock | indent | dedent | newLine | newDeeperLine |
      newOuterLine | newBareLine | setUnit | setNewline | setSink | ask => cases h

theorem Builder.newline_not_mem_told {b : Builder} {m : String} (h : b.told = some m) :
    '\n' ∉ m.toList := by
  unfold told at h
  split at h
  · cases h
  · cases h
    exact OneLine.not_mem (.append (.append (by decide) (oneLine_repr _)) (by decide))

/-- A message of a command holds a line feed just if it echoes a name that holds one. -/
theorem Command.newline_mem_told_iff {b : Builder} {c : Command} {m : String}
    (h : (Call.mk c (c.run b)).told = some m) :
    '\n' ∈ m.toList ↔ ∃ role given,
      (c.run b).fault? = some (.badArgument (.notAName role given)) ∧ '\n' ∈ given.toList := by
  cases ha : c.apply b with
  | ok b' =>
    rw [fault?_of_ok ha]
    rw [told_of_ok ha] at h
    obtain ⟨e, he, rfl⟩ := Option.map_eq_some_iff.1 h
    simp [newline_not_mem_event he]
  | error fault =>
    rw [fault?_of_error ha]
    rw [told_of_error ha, Option.some.injEq] at h
    subst h
    rcases apply_eq_error_iff.1 ha with ⟨-, -, rfl⟩ | ⟨f, hf, rfl⟩
    · have hfeed : '\n' ∉ (Event.rejected .levelIsZero).message.toList := by decide
      refine iff_of_false hfeed ?_
      rintro ⟨role, given, hf, -⟩
      cases hf
    · have hs (reason : String) : f ≠ .stated reason := by
        rintro rfl
        exact c.argumentFault?_ne_stated reason hf
      have hm : (Event.rejected (.badArgument f)).message = "Invalid argument: " ++ f.text := rfl
      have hfeed : '\n' ∉ "Invalid argument: ".toList := by decide
      rw [hm, String.toList_append, List.mem_append, or_iff_right hfeed,
        ArgumentFault.newline_mem_text_iff hs]
      simp

/-! ## Runs -/

def Call.Ran (call : Call) : Prop := ∃ b, call.outcome = call.command.run b

theorem Trace.ranLaw : RunLaw (fun _ => True) (fun _ t => ∀ call ∈ t.calls, call.Ran)
    (fun _ ts => ∀ call ∈ allCalls ts, call.Ran) where
  command b c _ := by
    intro call hcall
    rw [calls, List.mem_singleton] at hcall
    subst hcall
    exact ⟨b, rfl⟩
  indented b body tolerant failure h := h
  nil b := by simp [allCalls]
  cons b t ts ht hts := by
    intro call hcall
    rcases List.mem_append.1 hcall with hcall | hcall
    · exact ht call hcall
    · exact hts call hcall

theorem Call.Ran.newline_mem_told_iff {call : Call} (hran : call.Ran) {m : String}
    (h : call.told = some m) :
    '\n' ∈ m.toList ↔ ∃ role given,
      call.outcome.fault? = some (.badArgument (.notAName role given)) ∧ '\n' ∈ given.toList := by
  obtain ⟨c, o⟩ := call
  obtain ⟨b, hb⟩ := hran
  obtain rfl : o = c.run b := hb
  exact c.newline_mem_told_iff h

theorem Call.exists_told {call : Call} {fault : Fault} (h : call.outcome.fault? = some fault) :
    ∃ m, call.told = some m := by
  rw [told, h]
  exact ⟨_, rfl⟩

/-- **The journal has one line for each message** that it keeps, ended by the only line feed
in it, just if no name that a kept message echoes has a line feed. A name that has one breaks
its line, and what follows the break in the name is a line of the journal by itself. -/
theorem Script.isJournal_captured_iff (s : Script) :
    IsJournal s.run.captured s.run.kept.length ↔
      ∀ call ∈ Trace.allCalls s.run.traces, call.outcome.before.sink = some .keeping →
        ∀ role given, call.outcome.fault? = some (.badArgument (.notAName role given)) →
          '\n' ∉ given.toList := by
  have hran : ∀ call ∈ Trace.allCalls s.run.traces, call.Ran :=
    Trace.ranLaw.runAll true s.start s.steps fun _ _ => trivial
  rw [s.captured_eq_kept, isJournal_join_iff]
  constructor
  · intro h call hcall hsink role given hfault hmem
    obtain ⟨m, ht⟩ := Call.exists_told hfault
    have hk : call.kept = some m := keptBy_eq_some_iff.2 ⟨hsink, ht⟩
    have hm : m ∈ s.run.kept := List.mem_append_left _ (List.mem_filterMap.2 ⟨call, hcall, hk⟩)
    exact h m hm (((hran call hcall).newline_mem_told_iff ht).2 ⟨role, given, hfault, hmem⟩)
  · intro h m hm
    rcases List.mem_append.1 hm with hm | hm
    · obtain ⟨call, hcall, hk⟩ := List.mem_filterMap.1 hm
      obtain ⟨hsink, ht⟩ := keptBy_eq_some_iff.1 hk
      rw [(hran call hcall).newline_mem_told_iff ht]
      rintro ⟨role, given, hfault, hmem⟩
      exact h call hcall hsink role given hfault hmem
    · obtain ⟨-, ht⟩ := keptBy_eq_some_iff.1 (Option.mem_toList.1 hm)
      exact Builder.newline_not_mem_told ht

/-- A field whose name goes on after a line feed. -/
def forgingScript : Script where
  sink := some .keeping
  steps := [.command (.put (.field "a\nb"))]

/-- One message makes two lines, and the second one begins as the caller likes. -/
theorem echoed_name_breaks_line :
    ¬ ∀ s : Script, s.sink = some .keeping →
      (∀ c ∈ Step.allCommands s.steps, c.setsSink = false) →
        IsJournal s.run.captured s.run.kept.length := by
  intro h
  have hs : ∀ c ∈ Step.allCommands forgingScript.steps, c.setsSink = false := by decide
  have hc := (h forgingScript rfl hs).count
  revert hc
  decide +kernel

end LuaSource
