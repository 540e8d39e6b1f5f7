/-
Texts without line breaks, and what a builder makes of them: every phrase and
every header, branch and closer is without breaks if the texts that go into it
verbatim are. A long string is the one exception. The string of a short literal
and the key of a table entry do not have to be free of breaks, since they are
escaped, and numbers and tokens never hold any.
-/
import LuaSource.Block
import LuaSource.Phrase
import LuaSource.Proofs.QuotedReadBack

namespace LuaSource

def LineBreak.Free (cs : List Char) : Prop := ∀ c ∈ cs, LineBreak.isBreak c = false

def OneLine (s : String) : Prop := LineBreak.Free s.toList

-- Over the list, by name: an instance search can end in one that goes through all characters.
instance : DecidablePred LineBreak.Free := fun cs => List.decidableBAll _ cs

instance : DecidablePred OneLine := fun s => inferInstanceAs (Decidable (LineBreak.Free s.toList))

namespace LineBreak

/-- A class of characters with neither of the two break characters in it. -/
theorem isBreak_eq_false {p : Char → Bool} (hn : p '\n' = false) (hr : p '\r' = false) {c : Char}
    (h : p c = true) : isBreak c = false := by
  simp only [isBreak, Bool.or_eq_false_iff, beq_eq_false_iff_ne]
  constructor
  · rintro rfl
    rw [hn] at h
    cases h
  · rintro rfl
    rw [hr] at h
    cases h

theorem isBreak_of_isDigit {c : Char} (h : c.isDigit = true) : isBreak c = false :=
  isBreak_eq_false rfl rfl h

namespace Free

variable {c : Char} {cs cs' : List Char}

theorem nil : Free [] := fun _ h => by cases h

theorem cons (hc : isBreak c = false) (h : Free cs) : Free (c :: cs) :=
  List.forall_mem_cons.2 ⟨hc, h⟩

theorem append (h : Free cs) (h' : Free cs') : Free (cs ++ cs') :=
  List.forall_mem_append.2 ⟨h, h'⟩

theorem replicate (n : Nat) (hc : isBreak c = false) : Free (List.replicate n c) :=
  fun d hd => by rw [List.eq_of_mem_replicate hd, hc]

theorem sublist (h : Free cs) (hs : cs'.Sublist cs) : Free cs' := fun c hc => h c (hs.subset hc)

end Free

end LineBreak

open LineBreak (Free)

namespace OneLine

theorem append {s t : String} (hs : OneLine s) (ht : OneLine t) : OneLine (s ++ t) := by
  rw [OneLine, String.toList_append]
  exact Free.append hs ht

theorem join : ∀ {ss : List String}, (∀ s ∈ ss, OneLine s) → OneLine (String.join ss)
  | [], _ => by decide
  | s :: ss, h => by
    rw [String.join_cons]
    exact (h s List.mem_cons_self).append (join fun t ht => h t (List.mem_cons_of_mem s ht))

theorem commaList : ∀ {items : List String}, (∀ s ∈ items, OneLine s) → OneLine (commaList items)
  | [], _ => by decide
  | [s], h => by
    rw [LuaSource.commaList, String.intercalate_singleton]
    exact h s List.mem_cons_self
  | s :: t :: items, h => by
    have ht : OneLine (LuaSource.commaList (t :: items)) :=
      commaList fun u hu => h u (List.mem_cons_of_mem s hu)
    rw [LuaSource.commaList, String.intercalate_cons_cons]
    exact .append (.append (h s List.mem_cons_self) (by decide)) ht

theorem parenthesized {items : List String} (h : ∀ s ∈ items, OneLine s) :
    OneLine (parenthesized items) :=
  .append (.append (by decide) (commaList h)) (by decide)

theorem not_mem {s : String} (h : OneLine s) : '\n' ∉ s.toList := fun hm => by
  have := h _ hm
  cases this

end OneLine

/-! ## Keys and short literals -/

theorem Quoted.free_encodeChar (c : Char) : Free (encodeChar c) := by
  unfold encodeChar
  split
  · rename_i l hl
    have hb : LineBreak.isBreak l = false := by
      unfold letter? at hl
      split at hl <;> cases hl <;> rfl
    exact .cons rfl (.cons hb .nil)
  · rename_i hl
    split
    · have hd : ∀ n : Nat, LineBreak.isBreak (n % 10).digitChar = false := fun n =>
        LineBreak.isBreak_of_isDigit (isDigit_digitChar_mod n)
      exact .cons rfl (.cons (hd _) (.cons (hd _) (.cons (hd _) .nil)))
    · -- The breaks have letters, so `c` is none of them.
      have hb : LineBreak.isBreak c = false :=
        LineBreak.isBreak_eq_false (p := fun c => (letter? c).isNone) rfl rfl (by rw [hl]; rfl)
      exact .cons hb .nil

theorem oneLine_quote (raw : String) : OneLine (quote raw) := by
  rw [OneLine, toList_quote, Quoted.encode]
  refine .append (.cons rfl fun c hc => ?_) (.cons rfl .nil)
  obtain ⟨d, -, hd⟩ := List.mem_flatMap.1 hc
  exact Quoted.free_encodeChar d c hd

theorem oneLine_of_isName {name : String} (h : isName name = true) : OneLine name := fun c hc =>
  LineBreak.isBreak_eq_false rfl rfl (continues_of_isName h c hc)

theorem oneLine_tableKey (key : String) : OneLine (tableKey key) := by
  unfold tableKey
  split
  · rename_i hk
    exact .append (oneLine_of_isName hk) (by decide)
  · exact .append (.append (by decide) (oneLine_quote key)) (by decide)

/-! ## Numbers -/

theorem Decimal.free_toDigits (n : Nat) : Free (Nat.toDigits 10 n) := fun _ hc =>
  LineBreak.isBreak_of_isDigit (Nat.isDigit_of_mem_toDigits (by decide) (by decide) hc)

theorem Decimal.free_intChars (v : Int) : Free (intChars v) := by
  cases v with
  | ofNat n => exact free_toDigits n
  | negSucc n => exact .cons rfl (free_toDigits (n + 1))

theorem Decimal.free_positional {ds : List Char} (h : Free ds) (lead : Int) :
    Free (positional ds lead) := by
  unfold positional
  split
  · exact .cons rfl (.cons rfl ((Free.replicate _ rfl).append h))
  · dsimp only
    split
    · exact (h.append (.replicate _ rfl)).append (.cons rfl (.cons rfl .nil))
    · exact (h.sublist (List.take_sublist _ ds)).append
        (.cons rfl (h.sublist (List.drop_sublist _ ds)))

theorem Decimal.free_scientific {ds : List Char} (h : Free ds) (lead : Int) :
    Free (scientific ds lead) := by
  have hl : Free ('e' :: intChars lead) := .cons rfl (free_intChars lead)
  unfold scientific
  split
  · exact .nil
  · exact .cons (h _ List.mem_cons_self) hl
  · rename_i d rest _
    have hr : Free rest := fun c hc => h c (List.mem_cons_of_mem d hc)
    exact .cons (h d List.mem_cons_self) (.cons rfl (hr.append hl))

theorem Decimal.free_text (w : Window) (x : Decimal) : Free (x.text w) := by
  unfold text
  split
  · exact free_positional (free_toDigits _) _
  · exact free_scientific (free_toDigits _) _

theorem Literal.free_signed {cs : List Char} (negative : Bool) (h : Free cs) :
    Free (signed negative cs) := by
  unfold signed
  split
  · exact .cons rfl h
  · exact h

theorem oneLine_integer (v : Int64) : OneLine (integer v) := by
  rw [OneLine, integer, String.toList_ofList, Literal.integerChars]
  split
  · decide
  · exact Decimal.free_intChars _

theorem oneLine_float (x : Binary64) : OneLine (float x) := by
  rw [OneLine, float, String.toList_ofList, Literal.floatChars]
  split
  · decide
  · exact Literal.free_signed _ (by decide)
  · exact Literal.free_signed _ (Decimal.free_text _ _)

/-! ## Phrases and blocks -/

theorem Token.oneLine_text (t : Token) : OneLine t.text := by
  cases t with
  | atom a => cases a <;> decide
  | binary op => cases op <;> decide
  | unary op => cases op <;> decide
  | mark m => cases m <;> decide

theorem any_isBreak_iff {text : String} :
    text.toList.any LineBreak.isBreak = true ↔ ¬ OneLine text := by
  simp [OneLine, LineBreak.Free]

/-- What a comment of one line holds after its dashes: a blank and the text, or nothing. -/
def commentBody (text : String) : String := if text.isEmpty then "" else " " ++ text

theorem comment_of_oneLine {text : String} (h : OneLine text) :
    comment text = "--" ++ commentBody text := by
  rw [comment, if_neg fun ha => any_isBreak_iff.1 ha h, commentBody]
  split
  · rfl
  · rw [← String.append_assoc]
    rfl

theorem oneLine_commentBody {text : String} (h : OneLine text) : OneLine (commentBody text) := by
  unfold commentBody
  split
  · decide
  · exact .append (by decide) h

theorem oneLine_comment {text : String} (h : OneLine text) : OneLine (comment text) := by
  rw [comment_of_oneLine h]
  exact .append (by decide) (oneLine_commentBody h)

/-- The arguments that go into a phrase verbatim. -/
def Phrase.arguments : Phrase → List String
  | .verbatim text => [text]
  | .declareLocal names => names
  | .defineLocal names values => names ++ values
  | .assign targets values => targets ++ values
  | .returns values => values
  | .call callee args => callee :: args
  | .callMethod object method args => object :: method :: args
  | .field name => [name]
  | .index expr => [expr]
  | .goto target => [target]
  | .label name => [name]
  | .comment text => [text]
  | .token _ | .shortString _ | .longString _ | .integer _ | .float _ | .tableKey _ => []

def Phrase.isLongString : Phrase → Bool
  | .longString _ => true
  | _ => false

theorem Phrase.oneLine_text {p : Phrase} (hl : p.isLongString = false)
    (h : ∀ a ∈ p.arguments, OneLine a) : OneLine p.text := by
  cases p with
  | longString raw => cases hl
  | token t => exact t.oneLine_text
  | shortString raw => exact oneLine_quote raw
  | integer v => exact oneLine_integer v
  | float x => exact oneLine_float x
  | tableKey key => exact oneLine_tableKey key
  | verbatim text => exact h text List.mem_cons_self
  | comment text => exact oneLine_comment (h text List.mem_cons_self)
  | declareLocal names => exact .append (by decide) (.commaList h)
  | defineLocal names values =>
    obtain ⟨hn, hv⟩ := List.forall_mem_append.1 h
    exact .append (.append (.append (by decide) (.commaList hn)) (by decide)) (.commaList hv)
  | assign targets values =>
    obtain ⟨ht, hv⟩ := List.forall_mem_append.1 h
    exact .append (.append (.commaList ht) (by decide)) (.commaList hv)
  | returns values =>
    rw [text]
    split
    · decide
    · exact .append (by decide) (.commaList h)
  | call callee args =>
    obtain ⟨hc, ha⟩ := List.forall_mem_cons.1 h
    exact .append hc (.parenthesized ha)
  | callMethod object method args =>
    obtain ⟨ho, hm, ha⟩ := (List.forall_mem_cons.1 h).imp_right List.forall_mem_cons.1
    exact .append (.append (.append ho (by decide)) hm) (.parenthesized ha)
  | field name => exact .append (by decide) (h name List.mem_cons_self)
  | index expr => exact .append (.append (by decide) (h expr List.mem_cons_self)) (by decide)
  | goto target => exact .append (by decide) (h target List.mem_cons_self)
  | label name => exact .append (.append (by decide) (h name List.mem_cons_self)) (by decide)

def Opener.arguments : Opener → List String
  | .function name params => name.toList ++ params
  | .localFunction name params => name :: params
  | .ifThen condition => [condition]
  | .whileDo condition => [condition]
  | .forRange var start stop step => var :: start :: stop :: step.toList
  | .forIn names exprs => names ++ exprs
  | .doBlock | .repeatLoop => []

theorem Opener.oneLine_text {o : Opener} (h : ∀ a ∈ o.arguments, OneLine a) : OneLine o.text := by
  cases o with
  | function name params =>
    obtain ⟨hn, hp⟩ := List.forall_mem_append.1 h
    cases name with
    | none => exact .append (by decide) (.parenthesized hp)
    | some name => exact .append (.append (by decide) (hn name (by simp))) (.parenthesized hp)
  | localFunction name params =>
    obtain ⟨hn, hp⟩ := List.forall_mem_cons.1 h
    exact .append (.append (by decide) hn) (.parenthesized hp)
  | ifThen condition =>
    exact .append (.append (by decide) (h condition List.mem_cons_self)) (by decide)
  | whileDo condition =>
    exact .append (.append (by decide) (h condition List.mem_cons_self)) (by decide)
  | forRange var start stop step =>
    obtain ⟨hv, hs⟩ := List.forall_mem_cons.1 h
    exact .append (.append (.append (.append (by decide) hv) (by decide)) (.commaList hs))
      (by decide)
  | forIn names exprs =>
    obtain ⟨hn, he⟩ := List.forall_mem_append.1 h
    exact .append (.append (.append (.append (by decide) (.commaList hn)) (by decide))
      (.commaList he)) (by decide)
  | doBlock => decide
  | repeatLoop => decide

def Branch.arguments : Branch → List String
  | .elseIf condition => [condition]
  | .otherwise => []

theorem Branch.oneLine_text {br : Branch} (h : ∀ a ∈ br.arguments, OneLine a) : OneLine br.text := by
  cases br with
  | elseIf condition =>
    exact .append (.append (by decide) (h condition List.mem_cons_self)) (by decide)
  | otherwise => decide

def Closer.arguments : Closer → List String
  | .endBlock => []
  | .untilHolds condition => [condition]

theorem Closer.oneLine_text {c : Closer} (h : ∀ a ∈ c.arguments, OneLine a) : OneLine c.text := by
  cases c with
  | endBlock => decide
  | untilHolds condition =>
    exact .append (by decide) (h condition List.mem_cons_self)

end LuaSource
