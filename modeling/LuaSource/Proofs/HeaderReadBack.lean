/-
Headers keep their lists. A reader cuts a header at the first place where the sign or the word
between its two lists stands. The builder wrote it there, and nowhere before it: a name has no
blank in it, so before the sign a blank comes only after a comma, and what comes after that
blank is a name. No name is the sign, which no name is spelled with, and none is the word, which
is reserved.

The values come after the cut, so they may have the sign and the word in them. What they may
not have is a comma, or else they would be taken for more than one.
-/
import LuaSource.Header
import LuaSource.Proofs.LexemeFacts
import LuaSource.Proofs.RefusalRules

namespace LuaSource

/-! ## Endings -/

theorem beginning?_append (start ending : List Char) : beginning? ending (start ++ ending) = some start := by
  rw [beginning?, List.reverse_append, remainder?_append, Option.map_some, List.reverse_reverse]

/-! ## Lists -/

theorem toList_commaList_singleton (item : String) : (commaList [item]).toList = item.toList := by
  rw [commaList, String.intercalate_singleton]

theorem toList_commaList_cons_cons (item item' : String) (rest : List String) :
    (commaList (item :: item' :: rest)).toList =
      item.toList ++ ',' :: ' ' :: (commaList (item' :: rest)).toList := by
  rw [commaList, String.intercalate_cons_cons, ← commaList, String.toList_append,
    String.toList_append, List.append_assoc]
  rfl

theorem pieces_of_not_mem : ∀ {cs : List Char}, ',' ∉ cs → pieces cs = [cs]
  | [], _ => rfl
  | c :: cs, h => by
    obtain ⟨hc, hcs⟩ := List.ne_and_not_mem_of_not_mem_cons h
    rw [pieces, pieces_of_not_mem hcs]
    · rfl
    · rintro _ rfl
      exact absurd rfl hc

theorem pieces_append {rest : List Char} : ∀ {cs : List Char}, ',' ∉ cs →
    pieces (cs ++ ',' :: ' ' :: rest) = cs :: pieces rest
  | [], _ => rfl
  | c :: cs, h => by
    obtain ⟨hc, hcs⟩ := List.ne_and_not_mem_of_not_mem_cons h
    rw [List.cons_append, pieces, pieces_append hcs]
    · rfl
    · rintro _ rfl
      exact absurd rfl hc

/-- A list without commas in its items is read back from what it is written as. -/
theorem items_commaList : ∀ {is : List String}, is ≠ [] → (∀ i ∈ is, ',' ∉ i.toList) →
    items (commaList is).toList = is
  | [], h, _ => absurd rfl h
  | [i], _, h => by
    rw [toList_commaList_singleton, items, pieces_of_not_mem (h i List.mem_cons_self)]
    simp
  | i :: j :: is, _, h => by
    have ih := items_commaList (List.cons_ne_nil j is) fun k hk => h k (List.mem_cons_of_mem i hk)
    rw [toList_commaList_cons_cons, items, pieces_append (h i List.mem_cons_self), List.map_cons,
      ← items, ih, String.ofList_toList]

/-! ## Cuts -/

theorem cut?_append {mark : List Char} (h : mark ≠ []) (rest : List Char) :
    cut? mark (mark ++ rest) = some ([], rest) := by
  cases mark with
  | nil => exact absurd rfl h
  | cons a mark => rw [List.cons_append, cut?, ← List.cons_append, remainder?_append]

section

variable {mark cs before after : List Char}

/-- Where the mark does not stand, a character is passed over. -/
theorem cut?_cons {c : Char} (hc : remainder? mark (c :: cs) = none)
    (h : cut? mark cs = some (before, after)) : cut? mark (c :: cs) = some (c :: before, after) := by
  rw [cut?, hc, h]
  rfl

theorem cut?_append_of_not_mem {a : Char} (h : cut? (a :: mark) cs = some (before, after)) :
    ∀ {start : List Char}, a ∉ start →
      cut? (a :: mark) (start ++ cs) = some (start ++ before, after)
  | [], _ => h
  | c :: start, hs => by
    obtain ⟨hc, hs⟩ := List.ne_and_not_mem_of_not_mem_cons hs
    exact cut?_cons (by rw [remainder?, if_neg hc]) (cut?_append_of_not_mem h hs)

end

/-! ## Marks between lists -/

/-- Neither a blank nor a comma, which is what an item has next to it. -/
def apartFromGaps (c : Char) : Bool := c ≠ ' ' && c ≠ ','

def spaced (word : List Char) : List Char := ' ' :: (word ++ [' '])

/-- What comes after an item of the left list, and what is there in the end. -/
theorem exists_commaList_append (item : String) (rest : List String) (cs : List Char) :
    ∃ gap cs', (gap = ' ' ∨ gap = ',') ∧
      (commaList (item :: rest)).toList ++ ' ' :: cs = item.toList ++ gap :: cs' := by
  cases rest with
  | nil => exact ⟨' ', cs, .inl rfl, by rw [toList_commaList_singleton]⟩
  | cons item' rest =>
    refine ⟨',', ' ' :: ((commaList (item' :: rest)).toList ++ ' ' :: cs), .inr rfl, ?_⟩
    rw [toList_commaList_cons_cons, List.append_assoc]
    rfl

/-- The mark does not stand at the blank before an item that is not its word. -/
theorem remainder?_spaced_eq_none {word item cs : List Char} {gap : Char}
    (hw : ∀ c ∈ word, apartFromGaps c = true) (hi : ∀ c ∈ item, apartFromGaps c = true)
    (hgap : gap = ' ' ∨ gap = ',') (h : item ≠ word) :
    remainder? (spaced word) (' ' :: (item ++ gap :: cs)) = none := by
  cases hr : remainder? (spaced word) (' ' :: (item ++ gap :: cs)) with
  | none => rfl
  | some rest =>
    have heq : item ++ gap :: cs = word ++ ' ' :: rest := by
      simpa [spaced] using remainder?_eq_some_iff.1 hr
    have hg : ∀ c ∈ (gap :: cs).head?, apartFromGaps c = false := by
      rintro _ ⟨⟩
      rcases hgap with rfl | rfl <;> rfl
    have hb : ∀ c ∈ (' ' :: rest).head?, apartFromGaps c = false := by
      rintro _ ⟨⟩
      rfl
    have hi' := (Lexeme.span_append hi hg).1
    rw [heq, (Lexeme.span_append hw hb).1] at hi'
    exact absurd hi'.symm h

/-- **The cut is after the list**: before it the mark stands nowhere, if no item is the word of
the mark and none has a gap in it. -/
theorem cut?_commaList {word : List Char} (hw : ∀ c ∈ word, apartFromGaps c = true)
    (right : List Char) : ∀ {is : List String}, is ≠ [] →
    (∀ i ∈ is, i.toList ≠ word ∧ ∀ c ∈ i.toList, apartFromGaps c = true) →
    cut? (spaced word) ((commaList is).toList ++ (spaced word ++ right)) =
      some ((commaList is).toList, right)
  | [], h, _ => absurd rfl h
  | [i], _, h => by
    have hi : ' ' ∉ i.toList := fun hm => by cases (h i List.mem_cons_self).2 _ hm
    have hc := cut?_append_of_not_mem (cut?_append (List.cons_ne_nil ' ' (word ++ [' '])) right) hi
    rwa [List.append_nil, ← toList_commaList_singleton] at hc
  | i :: j :: is, _, h => by
    have ih := cut?_commaList hw right (List.cons_ne_nil j is) fun k hk =>
      h k (List.mem_cons_of_mem i hk)
    have hi : ' ' ∉ i.toList ++ [','] := fun hm => by
      rcases List.mem_append.1 hm with hm | hm
      · cases (h i List.mem_cons_self).2 _ hm
      · simp at hm
    obtain ⟨hne, hj⟩ := h j (List.mem_cons_of_mem i List.mem_cons_self)
    have hr : remainder? (spaced word)
        (' ' :: ((commaList (j :: is)).toList ++ (spaced word ++ right))) = none := by
      obtain ⟨gap, cs, hgap, heq⟩ := exists_commaList_append j is (word ++ [' '] ++ right)
      rw [spaced, List.cons_append, heq]
      exact remainder?_spaced_eq_none hw hj hgap hne
    have hs : (commaList (i :: j :: is)).toList =
        (i.toList ++ [',']) ++ ' ' :: (commaList (j :: is)).toList := by
      rw [toList_commaList_cons_cons, List.append_assoc]
      rfl
    -- The item with its comma is passed over, then the blank, since the next item is not the word.
    rw [hs, List.append_assoc]
    exact cut?_append_of_not_mem (cut?_cons hr ih) hi

/-! ## Names -/

section

variable {name : String}

theorem apartFromGaps_of_isName (h : isName name = true) :
    ∀ c ∈ name.toList, apartFromGaps c = true := by
  intro c hc
  have hcont := continues_of_isName h c hc
  unfold apartFromGaps
  rw [Bool.and_eq_true, decide_eq_true_eq, decide_eq_true_eq]
  constructor <;> rintro rfl <;> cases hcont

theorem comma_not_mem_of_isName (h : isName name = true) : ',' ∉ name.toList := fun hm => by
  cases apartFromGaps_of_isName h _ hm

theorem toList_ne_of_isName (h : isName name = true) {word : String} (hw : isName word = false) :
    name.toList ≠ word.toList := by
  intro he
  rw [String.toList_inj.1 he, hw] at h
  cases h

end

/-! ## Headers -/

namespace Header

/-- Names on the left of a mark that is no name, and items without commas on the right. -/
theorem lists?_commaList {word : String} (hw : ∀ c ∈ word.toList, apartFromGaps c = true)
    (hn : isName word = false) {names values : List String} (hns : names ≠ [])
    (hnames : ∀ n ∈ names, isName n = true) (hvs : values ≠ [])
    (hvalues : ∀ v ∈ values, ',' ∉ v.toList) :
    lists? (spaced word.toList)
      ((commaList names).toList ++ (spaced word.toList ++ (commaList values).toList)) =
        some (names, values) := by
  have hc := cut?_commaList hw (commaList values).toList hns fun n hmem =>
    ⟨toList_ne_of_isName (hnames n hmem) hn, apartFromGaps_of_isName (hnames n hmem)⟩
  have hl := items_commaList hns fun n hmem => comma_not_mem_of_isName (hnames n hmem)
  rw [lists?, hc, Option.map_some]
  dsimp only
  rw [hl, items_commaList hvs hvalues]

section

variable {names values : List String} (hns : names ≠ []) (hnames : ∀ n ∈ names, isName n = true)
  (hvs : values ≠ []) (hvalues : ∀ v ∈ values, ',' ∉ v.toList)

include hns hnames hvs hvalues

theorem readLocal?_text : readLocal? (Phrase.defineLocal names values).text = some (names, values) := by
  have ht : (Phrase.defineLocal names values).text.toList = "local ".toList ++
      ((commaList names).toList ++ (spaced "=".toList ++ (commaList values).toList)) := by
    show ("local " ++ commaList names ++ " = " ++ commaList values).toList = _
    simp [spaced]
  have hw : ∀ c ∈ "=".toList, apartFromGaps c = true := List.all_eq_true.1 rfl
  have hn : isName "=" = false := by decide
  rw [readLocal?, ht, remainder?_append, Option.bind_some]
  exact lists?_commaList hw hn hns hnames hvs hvalues

theorem readFor?_text : readFor? (Opener.forIn names values).text = some (names, values) := by
  have ht : (Opener.forIn names values).text.toList = "for ".toList ++
      (((commaList names).toList ++ (spaced "in".toList ++ (commaList values).toList)) ++
        " do".toList) := by
    show ("for " ++ commaList names ++ " in " ++ commaList values ++ " do").toList = _
    simp [spaced]
  have hw : ∀ c ∈ "in".toList, apartFromGaps c = true := List.all_eq_true.1 rfl
  have hn : isName "in" = false := by decide
  rw [readFor?, ht, remainder?_append, Option.bind_some, beginning?_append, Option.bind_some]
  exact lists?_commaList hw hn hns hnames hvs hvalues

end

theorem inside_commaList {params : List String} (h : ∀ p ∈ params, p ≠ "" ∧ ',' ∉ p.toList) :
    (if (commaList params).toList = [] then [] else items (commaList params).toList) = params := by
  cases params with
  | nil => rfl
  | cons p params =>
    have hp : p.toList ≠ [] := fun he => (h p List.mem_cons_self).1 (String.toList_eq_nil_iff.1 he)
    have hne : (commaList (p :: params)).toList ≠ [] := by
      cases params with
      | nil => rwa [toList_commaList_singleton]
      | cons p' params =>
        rw [toList_commaList_cons_cons]
        exact List.append_ne_nil_of_left_ne_nil hp _
    rw [if_neg hne, items_commaList (List.cons_ne_nil p params) fun q hq => (h q hq).2]

theorem readLocalFunction?_text {name : String} (hname : isName name = true) {params : List String}
    (hparams : ∀ p ∈ params, p ≠ "" ∧ ',' ∉ p.toList) :
    readLocalFunction? (Opener.localFunction name params).text = some (name, params) := by
  have ht : (Opener.localFunction name params).text.toList = "local function ".toList ++
      (name.toList ++ (['('] ++ ((commaList params).toList ++ [')']))) := by
    show ("local function " ++ name ++ ("(" ++ commaList params ++ ")")).toList = _
    simp
  have hb : '(' ∉ name.toList := fun hm => by cases continues_of_isName hname _ hm
  have hc := cut?_append_of_not_mem
    (cut?_append (List.cons_ne_nil '(' []) ((commaList params).toList ++ [')'])) hb
  rw [List.append_nil] at hc
  rw [readLocalFunction?, ht, remainder?_append, Option.bind_some, hc, Option.bind_some]
  dsimp only
  rw [beginning?_append, Option.map_some, String.ofList_toList, inside_commaList hparams]

end Header

/-! ## Runs -/

theorem Command.run_of_not_faulty {b : Builder} {c : Command} (hl : c.lowers = false)
    (hr : c ≠ .reset) (h : ¬ c.Faulty) :
    (c.run b).failed = false ∧ (c.run b).after.fragments = b.fragments ++ c.added b := by
  have hf : (c.run b).failed = false := by
    rw [Bool.eq_false_iff, ne_eq, failed_run_iff, hl]
    simp [h]
  exact ⟨hf, fragments_of_apply hr (apply_of_not_failed hf)⟩

/-- The builder carries the command out, and what it gets from it is the text. -/
def Command.Puts (b : Builder) (c : Command) (text : String) : Prop :=
  (c.run b).failed = false ∧ (c.run b).after.fragments = b.fragments ++ [.text text]

theorem not_faulty_lists {names values : List String} (hns : names ≠ [])
    (hnames : ∀ n ∈ names, isName n = true) (hvs : values ≠ []) :
    ¬ (names = [] ∨ "" ∈ names ∨ values = []) := by
  have he : "" ∉ names := fun hm => by cases hnames "" hm
  simp [hns, he, hvs]

/-- **Headers keep their lists.** For names, and values without commas, the builder takes a
`local` statement and a `for` loop, and from what it gets a reader has just the names and the
values again, also when the values have the sign or the word in them that stands between the
lists. For a name, and parameters that are not empty and have no commas, the same is so of a
local function, with or without parameters. -/
theorem Command.headers_read_back (b : Builder) :
    (∀ names values : List String, names ≠ [] → (∀ n ∈ names, isName n = true) → values ≠ [] →
      (∀ v ∈ values, ',' ∉ v.toList) →
        (∃ text, Puts b (.put (.defineLocal names values)) text ∧
          Header.readLocal? text = some (names, values)) ∧
        ∃ text, Puts b (.openBlock (.forIn names values)) text ∧
          Header.readFor? text = some (names, values)) ∧
      ∀ (name : String) (params : List String), isName name = true →
        (∀ p ∈ params, p ≠ "" ∧ ',' ∉ p.toList) →
          ∃ text, Puts b (.openBlock (.localFunction name params)) text ∧
            Header.readLocalFunction? text = some (name, params) := by
  constructor
  · intro names values hns hnames hvs hvalues
    have hf := not_faulty_lists hns hnames hvs
    exact ⟨⟨_, run_of_not_faulty rfl nofun hf, Header.readLocal?_text hns hnames hvs hvalues⟩,
      _, run_of_not_faulty rfl nofun hf, Header.readFor?_text hns hnames hvs hvalues⟩
  · intro name params hname hparams
    have hf : ¬ isName name = false := by simp [hname]
    exact ⟨_, run_of_not_faulty rfl nofun hf, Header.readLocalFunction?_text hname hparams⟩

/-- Names that begin with the word, values with both marks in them, a parameter with brackets. -/
theorem headers_read_back_in :
    let b : Builder := {}
    let names := ["inn", "i", "_in"]
    let values := ["a = b", " in c do", "(d)"]
    (∃ text, Command.Puts b (.openBlock (.forIn names values)) text ∧
      text = "for inn, i, _in in a = b,  in c do, (d) do" ∧
      Header.readFor? text = some (names, values)) ∧
    ∃ text, Command.Puts b (.openBlock (.localFunction "f" ["x)(", "..."])) text ∧
      Header.readLocalFunction? text = some ("f", ["x)(", "..."]) := by
  intro b names values
  obtain ⟨hlists, hfunction⟩ := Command.headers_read_back b
  obtain ⟨text, hp, hr⟩ :=
    (hlists names values (by decide) (by decide) (by decide) (by decide)).2
  refine ⟨⟨text, hp, ?_, hr⟩, hfunction "f" ["x)(", "..."] (by decide) (by decide)⟩
  have ht : [Fragment.text text] = [.text (Opener.forIn names values).text] :=
    hp.2.symm.trans (by decide +kernel)
  simp only [List.cons.injEq, Fragment.text.injEq, and_true] at ht
  rw [ht]
  decide +kernel

end LuaSource
