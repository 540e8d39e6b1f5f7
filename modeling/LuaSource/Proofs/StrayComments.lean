/-
Operators and literals that hide a comment when they are put one after the other. Phrases go on a
line with nothing between them. The text of a fixed token, a number or a short string opens
nothing by itself, and two of these texts only may open something with what comes next: the minus
sign of an operand, which has no blank after it, and an opening bracket. So a row of phrases meets
no comment if no minus stands before another and no bracket before another. The condition cannot
be made weaker: each pair of phrases that it excludes is followed by a comment in some row that
excludes no other pair.
-/
import LuaSource.Report
import LuaSource.Proofs.FloatLiteral
import LuaSource.Proofs.RunFacts
import LuaSource.Proofs.UnopenedText
import Mathlib.Data.List.Chain

namespace LuaSource

open Lexeme (Inert Unopened MeetsComment isPlain opens)

/-! ## Numbers -/

/-- A text that opens nothing, neither with what comes after it nor with what it comes after. -/
structure Lexeme.Closed (cs : List Char) : Prop where
  inert : Inert cs
  head : ∃ c ∈ cs.head?, c ≠ '-' ∧ c ≠ '[' ∧ c ≠ '='

open Lexeme (Closed)

theorem Lexeme.ne_of_isDigit {c d : Char} (hc : c.isDigit = true) (hd : d.isDigit = false) :
    c ≠ d := by
  intro he
  rw [he, hd] at hc
  cases hc

theorem Lexeme.isPlain_of_isDigit {c : Char} (h : c.isDigit = true) : isPlain c = true := by
  have hne {d : Char} (hd : d.isDigit = false) : c ≠ d := Lexeme.ne_of_isDigit h hd
  simp [isPlain, isQuote, hne]

theorem Lexeme.Closed.inert_minus {cs : List Char} (h : Closed cs) : Inert ('-' :: cs) := by
  obtain ⟨c, hc, hne, -⟩ := h.head
  cases cs with
  | nil => cases hc
  | cons d cs =>
    cases hc
    refine .before rfl ?_ h.inert
    simp [opens, hne]

namespace Numeral

variable {cs rest : List Char}

theorem Digits.inert_append (h : Digits cs) (hr : Inert rest) : Inert (cs ++ rest) :=
  .plain_append (fun c hc => Lexeme.isPlain_of_isDigit (h.isDigit c hc)) hr

theorem Digits.inert (h : Digits cs) : Inert cs :=
  .of_plain fun c hc => Lexeme.isPlain_of_isDigit (h.isDigit c hc)

theorem closed_of_startsWithDigit (h : Quantity.StartsWithDigit cs) (hi : Inert cs) : Closed cs := by
  obtain ⟨c, hc, hd⟩ := h
  have hne {d : Char} := Lexeme.ne_of_isDigit (d := d) hd
  exact ⟨hi, c, hc, hne rfl, hne rfl, hne rfl⟩

theorem closed_toDigits (n : Nat) : Closed (Nat.toDigits 10 n) :=
  closed_of_startsWithDigit (.of_toDigits n) (Digits.toDigits n).inert

theorem inert_exponent (e : Int) : Inert ('e' :: Decimal.intChars e) := by
  refine .plain rfl ?_
  cases e with
  | ofNat n => exact (closed_toDigits n).inert
  | negSucc n => exact (closed_toDigits (n + 1)).inert_minus

theorem FloatText.closed {x : Decimal} (h : FloatText cs x) : Closed cs := by
  refine closed_of_startsWithDigit (.of_floatText h) ?_
  cases h with
  | pointed hw hf => exact hw.inert_append (.plain rfl hf.inert)
  | scaled e hw => exact hw.inert_append (inert_exponent e)
  | pointedScaled e hw hf =>
    exact hw.inert_append (.plain rfl (hf.inert_append (inert_exponent e)))

end Numeral

/-! ## Phrases -/

namespace Phrase

/-- The fixed tokens, the numbers and the short strings. -/
def isLexical : Phrase → Bool
  | .token _ | .shortString _ | .integer _ | .float _ => true
  | _ => false

/-- Whether the text starts with a minus: the operator, or the sign of a number that has one.
The least integer is written by its name, and what is not a number has no sign. -/
def startsWithMinus : Phrase → Bool
  | .token t => t == .unary .neg
  | .integer v => v != Int64.minValue && decide (v.toInt < 0)
  | .float x => x.value != .nan && x.negative
  | _ => false

/-- What must not stand before what: an operator minus before another minus, be it an operator
or a sign, and an opening bracket before another. -/
inductive Clash : Phrase → Phrase → Prop
  | minus {q : Phrase} : q.startsWithMinus = true → Clash (.token (.unary .neg)) q
  | bracket : Clash (.token (.mark .openBracket)) (.token (.mark .openBracket))

theorem clash_iff {p q : Phrase} : p.Clash q ↔
    p = .token (.unary .neg) ∧ q.startsWithMinus = true ∨
      p = .token (.mark .openBracket) ∧ q = .token (.mark .openBracket) := by
  constructor
  · intro h
    cases h with
    | minus hq => exact .inl ⟨rfl, hq⟩
    | bracket => exact .inr ⟨rfl, rfl⟩
  · rintro (⟨rfl, hq⟩ | ⟨rfl, rfl⟩)
    · exact .minus hq
    · exact .bracket

instance (p q : Phrase) : Decidable (p.Clash q) := decidable_of_iff' _ clash_iff

/-- A row of phrases in which no two neighbours clash. -/
def Apart (ps : List Phrase) : Prop := ps.IsChain fun p q => ¬ p.Clash q

instance (ps : List Phrase) : Decidable (Apart ps) :=
  inferInstanceAs (Decidable (ps.IsChain fun p q => ¬ p.Clash q))

/-! ### Texts -/

theorem toList_integer (v : Int64) : ∃ cs,
    (LuaSource.integer v).toList = Literal.signed (startsWithMinus (.integer v)) cs ∧
      Closed cs := by
  by_cases hmin : v = Int64.minValue
  · subst hmin
    refine ⟨"math.mininteger".toList, by decide +kernel, .of_plain (List.all_eq_true.1 rfl), 'm', ?_⟩
    decide
  · refine ⟨_, ?_, Numeral.closed_toDigits v.toInt.natAbs⟩
    rw [Quantity.toList_integer_of_ne hmin, startsWithMinus, bne_iff_ne.2 hmin, Bool.true_and]

theorem toList_float (x : Binary64) : ∃ cs,
    (LuaSource.float x).toList = Literal.signed (startsWithMinus (.float x)) cs ∧ Closed cs := by
  cases h : x.value with
  | nan =>
    refine ⟨"(0/0)".toList, ?_, .of_plain (List.all_eq_true.1 rfl), '(', ?_⟩
    · rw [LuaSource.float, String.toList_ofList, Literal.floatChars, h, startsWithMinus, h]
      rfl
    · decide
  | infinite negative =>
    refine ⟨"math.huge".toList, ?_, .of_plain (List.all_eq_true.1 rfl), 'm', ?_⟩
    · rw [LuaSource.float, String.toList_ofList, Literal.floatChars, h, startsWithMinus, h,
        (Binary64.of_value_infinite h).1]
      rfl
    · decide
  | finite negative m q =>
    obtain ⟨cs, d, htext, hd, -⟩ := float_of_finite h
    refine ⟨cs, ?_, hd.closed⟩
    rw [htext, startsWithMinus, h]
    rfl

theorem inert_signed {cs : List Char} (h : Closed cs) (negative : Bool) :
    Inert (Literal.signed negative cs) := by
  cases negative with
  | false => exact h.inert
  | true => exact h.inert_minus

/-- All tokens but the minus of an operand and the opening bracket. -/
theorem inert_token {t : Token} (hminus : t ≠ .unary .neg) (hbracket : t ≠ .mark .openBracket) :
    Inert t.text.toList := by
  by_cases hsub : t = .binary .sub
  · subst hsub
    exact .plain rfl (.before rfl rfl (.plain rfl .nil))
  · refine .of_plain (List.all_eq_true.1 ?_)
    cases t with
    | atom a => cases a <;> rfl
    | binary op => cases op <;> first | exact absurd rfl hsub | rfl
    | unary op => cases op <;> first | exact absurd rfl hminus | rfl
    | mark m => cases m <;> first | exact absurd rfl hbracket | rfl

theorem exists_head?_of_signed {p : Phrase} {cs : List Char} (h : Closed cs)
    (htext : p.text.toList = Literal.signed p.startsWithMinus cs) :
    ∃ c ∈ p.text.toList.head?, (c = '-' ↔ p.startsWithMinus = true) ∧
      (c = '[' ∨ c = '=' → p = .token (.mark .openBracket)) := by
  rw [htext]
  cases p.startsWithMinus with
  | false =>
    obtain ⟨c, hc, hminus, hopen, hequals⟩ := h.head
    exact ⟨c, hc, iff_of_false hminus (by decide), fun he => (he.elim hopen hequals).elim⟩
  | true => exact ⟨'-', rfl, by decide, fun he => nomatch he⟩

/-- What a phrase starts with: a minus if it is said to, and a bracket only if it is one. -/
theorem exists_head? {p : Phrase} (h : p.isLexical = true) : ∃ c ∈ p.text.toList.head?,
    (c = '-' ↔ p.startsWithMinus = true) ∧
      (c = '[' ∨ c = '=' → p = .token (.mark .openBracket)) := by
  cases p with
  | token t =>
    cases t with
    | atom a => cases a <;> exact ⟨_, rfl, by decide, by decide⟩
    | binary op => cases op <;> exact ⟨_, rfl, by decide, by decide⟩
    | unary op => cases op <;> exact ⟨_, rfl, by decide, by decide⟩
    | mark m => cases m <;> exact ⟨_, rfl, by decide, by decide⟩
  | shortString raw =>
    refine ⟨'"', ?_, iff_of_false (by decide) (by nofun), by simp⟩
    rw [text, toList_quote]
    rfl
  | integer v =>
    obtain ⟨cs, htext, hcs⟩ := toList_integer v
    exact exists_head?_of_signed hcs htext
  | float x =>
    obtain ⟨cs, htext, hcs⟩ := toList_float x
    exact exists_head?_of_signed hcs htext
  | verbatim | longString | declareLocal | defineLocal | assign | returns | call | callMethod
    | field | index | tableKey | goto | label | comment => cases h

/-! ### Rows -/

def rowText (ps : List Phrase) : List Char := ps.flatMap (·.text.toList)

theorem exists_head?_of_rowText {ps : List Phrase} {c : Char} (h : ∀ p ∈ ps, p.isLexical = true)
    (hc : c ∈ (rowText ps).head?) : ∃ p ∈ ps.head?, (c = '-' ↔ p.startsWithMinus = true) ∧
      (c = '[' ∨ c = '=' → p = .token (.mark .openBracket)) := by
  cases ps with
  | nil => cases hc
  | cons p ps =>
    obtain ⟨d, hd, hfits⟩ := exists_head? (h p List.mem_cons_self)
    rw [rowText, List.flatMap_cons, List.head?_append, Option.mem_def.1 hd] at hc
    cases hc
    exact ⟨p, rfl, hfits⟩

/-- **One phrase more.** A phrase in front of a row opens nothing if it does not clash with the
first one. -/
theorem unopened_cons {p : Phrase} {ps : List Phrase} (hp : p.isLexical = true)
    (hps : ∀ q ∈ ps, q.isLexical = true) (hclash : ∀ q ∈ ps.head?, ¬ p.Clash q)
    (h : Unopened (rowText ps)) : Unopened (rowText (p :: ps)) := by
  show Unopened (p.text.toList ++ rowText ps)
  cases p with
  | token t =>
    -- Only after these two texts does it matter what the rest starts with.
    by_cases hminus : t = .unary .neg
    · subst hminus
      show Unopened ('-' :: rowText ps)
      refine .char rfl (fun d hd => ?_) h
      obtain ⟨q, hq, hhead, -⟩ := exists_head?_of_rowText hps hd
      have hne : d ≠ '-' := fun he => hclash q hq (.minus (hhead.1 he))
      simp [opens, hne]
    · by_cases hbracket : t = .mark .openBracket
      · subst hbracket
        show Unopened ('[' :: rowText ps)
        refine .char rfl (fun d hd => ?_) h
        obtain ⟨q, hq, -, hhead⟩ := exists_head?_of_rowText hps hd
        have hne : ¬ (d = '[' ∨ d = '=') := fun he => hclash q hq (hhead he ▸ .bracket)
        simpa [opens] using hne
      · exact (inert_token hminus hbracket).unopened_append h
  | shortString raw =>
    rw [text, toList_quote]
    exact .literal raw.toList h
  | integer v =>
    obtain ⟨cs, htext, hcs⟩ := toList_integer v
    rw [text, htext]
    exact (inert_signed hcs _).unopened_append h
  | float x =>
    obtain ⟨cs, htext, hcs⟩ := toList_float x
    rw [text, htext]
    exact (inert_signed hcs _).unopened_append h
  | verbatim | longString | declareLocal | defineLocal | assign | returns | call | callMethod
    | field | index | tableKey | goto | label | comment => cases hp

/-- **A whole row.** Phrases that are apart open nothing. -/
theorem Apart.unopened {ps : List Phrase} (h : Apart ps) (hps : ∀ p ∈ ps, p.isLexical = true) :
    Unopened (rowText ps) := by
  induction ps with
  | nil => exact .nil
  | cons p ps ih =>
    rw [List.forall_mem_cons] at hps
    obtain ⟨hclash, hrest⟩ := List.isChain_cons.1 h
    exact unopened_cons hps.1 hps.2 hclash (ih hrest hps.2)

/-- **Clashes hide comments.** Each pair that clashes is followed by a comment in a row that is
otherwise apart. After a minus the row ends with the second one. Two brackets open a string,
which ends inside the next literal, and what the literal goes on with is a comment. -/
theorem Clash.exists_meetsComment {p q : Phrase} (h : p.Clash q) (hq : q.isLexical = true) :
    ∃ after, (∀ r ∈ after, r.isLexical = true) ∧ Apart (q :: after) ∧
      MeetsComment (rowText (p :: q :: after)) := by
  cases h with
  | minus hminus =>
    obtain ⟨c, hc, hhead, -⟩ := exists_head? hq
    obtain ⟨rest, hrest⟩ := List.head?_eq_some_iff.1 (Option.mem_def.1 hc)
    rw [hhead.2 hminus] at hrest
    refine ⟨[], by simp, .singleton q, [], rest, ?_⟩
    have htext : rowText [.token (.unary .neg), q] = '-' :: '-' :: rest := by
      rw [rowText, List.flatMap_cons, List.flatMap_singleton, hrest]
      rfl
    rw [htext]
    exact .here _
  | bracket =>
    refine ⟨[.shortString "]]--"], by simp [isLexical], ?_, ?_⟩
    · rw [Apart, List.isChain_pair]
      exact fun hclash => nomatch hclash
    · refine ⟨[.string "\""], ['"'], .lexeme ?_ (.here _)⟩
      decide +kernel

/-! ### Runs -/

theorem fault?_of_isLexical {p : Phrase} (h : p.isLexical = true) : p.fault? = none := by
  cases p with
  | token | shortString | integer | float => rfl
  | verbatim | longString | declareLocal | defineLocal | assign | returns | call | callMethod
    | field | index | tableKey | goto | label | comment => cases h

/-- Each phrase is accepted, and nothing comes between their texts. -/
theorem accepts_row {ps : List Phrase} (h : ∀ p ∈ ps, p.isLexical = true) (b : Builder) :
    ∃ b', Accepts b (ps.map .put) b' ∧ b'.render.toList = b.render.toList ++ rowText ps := by
  induction ps generalizing b with
  | nil => exact ⟨b, .nil, (List.append_nil _).symm⟩
  | cons p ps ih =>
    rw [List.forall_mem_cons] at h
    obtain ⟨b', haccepts, hrender⟩ := ih h.2 (b.append p.text)
    refine ⟨b', .cons (Builder.put_eq_ok_iff.2 ⟨fault?_of_isLexical h.1, rfl⟩) haccepts, ?_⟩
    rw [hrender, Builder.render_append, String.toList_append, List.append_assoc]
    rfl

end Phrase

def Script.withRow (s : Script) (ps : List Phrase) : Script :=
  { s with steps := (ps.map Command.put).map .command }

theorem Script.run_withRow (s : Script) {ps : List Phrase} (h : ∀ p ∈ ps, p.isLexical = true) :
    (∀ t ∈ (s.withRow ps).run.traces, t.outcome.failed = false) ∧
      (s.withRow ps).run.final.render.toList = Phrase.rowText ps := by
  obtain ⟨b', haccepts, hrender⟩ := Phrase.accepts_row h (s.withRow ps).start
  obtain ⟨-, hnone, hfinal⟩ := haccepts.runAll true
  refine ⟨hnone, ?_⟩
  show (Trace.final _ (Step.runAll true _ ((ps.map Command.put).map .command))).render.toList = _
  rw [hfinal, hrender]
  rfl

/-- **Which rows of operators and literals hide a comment.** All of them are accepted and written
one after the other, whatever the numbers and strings are. If no two neighbours clash, the lexer
never stands before two dashes, even if it cannot cut the text to its end, and none of its lexemes
is a comment. And two neighbours clash exactly if they are followed by a comment in some row that
has no other clash. -/
theorem Script.rows_hide_no_comment (s : Script) (ps : List Phrase)
    (h : ∀ p ∈ ps, p.isLexical = true) :
    let report := (s.withRow ps).run
    (∀ t ∈ report.traces, t.outcome.failed = false) ∧
    report.final.render.toList = Phrase.rowText ps ∧
    (Phrase.Apart ps → ¬ MeetsComment report.final.render.toList ∧
      ∀ xs, Lexeme.all? report.final.render.toList = some xs → ∀ x ∈ xs, x.isComment = false) ∧
    ∀ p q, [p, q] <:+: ps → (p.Clash q ↔ ∃ after, (∀ r ∈ after, r.isLexical = true) ∧
      Phrase.Apart (q :: after) ∧ MeetsComment (Phrase.rowText (p :: q :: after))) := by
  intro report
  obtain ⟨hnone, hrender⟩ := s.run_withRow h
  refine ⟨hnone, hrender, fun hapart => ?_, fun p q hpair => ?_⟩
  · have hmeets : ¬ MeetsComment report.final.render.toList := by
      rw [hrender]
      exact (hapart.unopened h).not_meetsComment
    refine ⟨hmeets, fun xs hall x hx => ?_⟩
    rw [Bool.eq_false_iff]
    intro hcomment
    exact hmeets ((Lexeme.reads_of_all? hall).meetsComment hx hcomment)
  · have hp : p.isLexical = true := h p (hpair.subset (by simp))
    have hq : q.isLexical = true := h q (hpair.subset (by simp))
    refine ⟨fun hclash => hclash.exists_meetsComment hq, ?_⟩
    rintro ⟨after, hafter, hapart, hmeets⟩
    by_contra hclash
    have hrow : Phrase.Apart (p :: q :: after) := List.isChain_cons_cons.2 ⟨hclash, hapart⟩
    have hall : ∀ r ∈ p :: q :: after, r.isLexical = true :=
      List.forall_mem_cons.2 ⟨hp, List.forall_mem_cons.2 ⟨hq, hafter⟩⟩
    exact (hrow.unopened hall).not_meetsComment hmeets

/-- Dashes in a string, a minus with a blank on each side before a sign, and an index of an index. -/
def signsRow : List Phrase :=
  [.token (.unary .not), .token (.unary .neg), .shortString "--[[", .token (.binary .sub),
    .integer (-1), .token (.mark .openBracket), .float ⟨0x8000000000000000⟩,
    .token (.mark .closeBracket), .token (.mark .openBracket), .shortString "]]",
    .token (.mark .closeBracket)]

theorem rows_hide_no_comment_signsRow :
    ((∀ p ∈ signsRow, p.isLexical = true) ∧ Phrase.Apart signsRow) ∧
    ¬ MeetsComment (Script.withRow { steps := [] } signsRow).run.final.render.toList := by
  have hlexical : ∀ p ∈ signsRow, p.isLexical = true := by decide
  have hapart : Phrase.Apart signsRow := by decide
  refine ⟨⟨hlexical, hapart⟩, ?_⟩
  exact ((Script.rows_hide_no_comment { steps := [] } signsRow hlexical).2.2.1 hapart).1

/-- The minus of an operand before a negative integer is `--1`. -/
theorem minus_hides_comment :
    ¬ ∀ ps : List Phrase, (∀ p ∈ ps, p.isLexical = true) →
      ¬ MeetsComment (Script.withRow { steps := [] } ps).run.final.render.toList := by
  intro h
  refine h [.token (.unary .neg), .integer (-1)] (by decide) ⟨[], ['1'], ?_⟩
  have hrender : (Script.withRow { steps := [] }
      [.token (.unary .neg), .integer (-1)]).run.final.render.toList = ['-', '-', '1'] := by
    decide +kernel
  rw [hrender]
  exact .here _

end LuaSource
