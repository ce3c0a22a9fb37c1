import TextToSql.Proofs.Coverage
import TextToSql.Proofs.Discipline
import TextToSql.Proofs.Intent.Showing
import TextToSql.Proofs.LetterCase
import TextToSql.Proofs.Ranking

/-!
# Sort requests and groups

The word `by` is a cue for groups wherever it stands, so that the order phrase of a question, `sorted by name`,
is a cue for groups as well. A question that only asks for an order is therefore grouped by the columns worth
grouping by that it projects or mentions, and by the spans of time that it names.

* `occursIn_orderPhrase` : an order phrase is the word `by` between a verb of sorting and another word;
* `occursIn_groupingCue` : the cue for groups is the word `per` or `by`, whatever stands before it;
* `Intent.groupsOf_of_sortsOnly` : the groups of a question that only asks for an order.
-/

namespace TextToSql

open Unicode

namespace Pattern

/-! ## Parts between white space -/

/-- There is a word boundary between white space and a character of a word. -/
theorem isBoundary_of_white_word (before after : Option Char) (hbefore : ∃ c ∈ before, isWhite c)
    (hafter : ∃ c ∈ after, isWordChar c) : isBoundary before after := by
  obtain ⟨c, hc, hwhite⟩ := hbefore
  obtain ⟨d, hd, hword⟩ := hafter
  have hnone : isWordChar c = false :=
    Bool.eq_false_iff.mpr fun hc => by simp [Text.isWhite_of_isWordChar c hc] at hwhite
  simp [isBoundary, Option.mem_def.mp hc, Option.mem_def.mp hd, hnone, hword]

/-- There is a word boundary between a character of a word and white space. -/
theorem isBoundary_of_word_white (before after : Option Char) (hbefore : ∃ c ∈ before, isWordChar c)
    (hafter : ∃ c ∈ after, isWhite c) : isBoundary before after := by
  have hboundary := isBoundary_of_white_word after before hafter hbefore
  rwa [isBoundary, bne_comm] at hboundary

/-- What starts with a boundary starts at one and goes on as the rest. -/
theorem runs_boundary_append (p : Pattern) (before : Option Char) (s : List Char) :
    (boundary ++ p).runs before s = if isBoundary before s.head? then p.runs before s else [] := by
  show (seq boundary p).runs before s = _
  have hid : Run.followedBy ⟨[], s, []⟩ = id := rfl
  rw [runs, runs]
  split
  · simp [lastOf, hid]
  · rfl

/-- A captured part is taken where it is taken. -/
theorem runs_append_capture_ne_nil_iff (p q : Pattern) (before : Option Char) (s : List Char) :
    (p ++ capture q).runs before s ≠ [] ↔ (p ++ q).runs before s ≠ [] := by
  have hcapture : ∀ before s, (capture q).runs before s = (q.runs before s).map Run.captured :=
    fun _ _ => rfl
  simp only [runs_append_ne_nil_iff, hcapture, ne_eq, List.map_eq_nil_iff]

/-! ## Order phrases -/

/-- The verbs of sorting. -/
def orderVerbs : List String :=
  ["order", "ordered", "sort", "sorted", "arrange", "arranged", "rank", "ranked"]

/-- The verbs of sorting are plain words. -/
theorem orderVerbs_isPlain : ∀ term ∈ orderVerbs,
    term.toList ≠ [] ∧ Text.IsPlain (term.toList.map Char.toLower) := by
  decide +kernel

/-- The word `by` is plain. -/
theorem by_isPlain : "by".toList ≠ [] ∧ Text.IsPlain ("by".toList.map Char.toLower) := by
  decide +kernel

/-- A part of a text stands between a verb of sorting and another word, with nothing but white space between
them. -/
def InOrderPhrase (before part after : String) : Prop :=
  (∃ earlier verb white, before = earlier ++ verb ++ white ∧ IsRun .space white.toList
    ∧ ∃ term ∈ orderVerbs, Occurs term earlier verb (white ++ part ++ after))
  ∧ StartsSpaced .word after.toList

/-- An order phrase is taken piece by piece. -/
theorem runs_orderPhrase_ne_nil_iff (before : Option Char) (s : List Char) :
    Lexicon.orderPhrase.runs before s ≠ []
      ↔ isBoundary before s.head?
        ∧ ∃ verb ∈ (oneOf orderVerbs).runs before s,
            ∃ white ∈ spaces.runs (lastOf before verb.taken) verb.rest,
            ∃ part ∈ (lit "by").runs (lastOf (lastOf before verb.taken) white.taken) white.rest,
              StartsSpaced .word part.rest := by
  have hphrase : Lexicon.orderPhrase.runs before s
      = (boundary ++ (oneOf orderVerbs ++ (spaces ++ (lit "by" ++ (spaces ++ capture word))))).runs before s := by
    simp only [Lexicon.orderPhrase, runs_append_assoc, orderVerbs]
  have hboundary : ∀ rs : List Run, (if isBoundary before s.head? then rs else []) ≠ []
      ↔ isBoundary before s.head? ∧ rs ≠ [] := by
    intro rs
    split <;> simp_all
  have hkey : ∀ before s, (spaces ++ capture word).runs before s ≠ [] ↔ StartsSpaced .word s := by
    intro before s
    rw [runs_append_capture_ne_nil_iff]
    exact runs_spaces_run_ne_nil_iff .word Text.isWhite_of_isWordChar before s
  rw [hphrase, runs_boundary_append, hboundary]
  simp only [runs_append_ne_nil_iff (oneOf orderVerbs), runs_append_ne_nil_iff spaces (lit "by" ++ _),
    runs_append_ne_nil_iff (lit "by"), hkey]

/-- What is a plain word up to case starts and ends with a character of a word. -/
theorem ends_of_folds (term part : List Char) (hne : term ≠ []) (hplain : Text.IsPlain (term.map Char.toLower))
    (h : Folds term part) : (∃ c ∈ part.head?, isWordChar c) ∧ ∃ c ∈ part.getLast?, isWordChar c := by
  have hpart := h.ne_nil hne
  exact ⟨⟨_, List.head?_eq_some_head hpart, Text.isWordChar_of_folds hplain h _ (List.head_mem hpart)⟩,
    _, List.getLast?_eq_some_getLast hpart, Text.isWordChar_of_folds hplain h _ (List.getLast_mem hpart)⟩

/-- A run of a class starts and ends with a character of the class. -/
theorem ends_of_isRun (cls : CharClass) (s : List Char) (h : IsRun cls s) :
    (∃ c ∈ s.head?, cls.contains c) ∧ ∃ c ∈ s.getLast?, cls.contains c :=
  ⟨⟨_, List.head?_eq_some_head h.1, h.2 _ (List.head_mem h.1)⟩,
    _, List.getLast?_eq_some_getLast h.1, h.2 _ (List.getLast_mem h.1)⟩

/-- What has a property at its start has it with more text behind it. -/
theorem exists_head?_append {p : Char → Prop} {s : List Char} (t : List Char) (h : ∃ c ∈ s.head?, p c) :
    ∃ c ∈ (s ++ t).head?, p c := by
  obtain ⟨c, hc, hp⟩ := h
  exact ⟨c, List.mem_head?_append_of_mem_head? hc, hp⟩

/-- What has a property at its end has it with more text before it. -/
theorem exists_getLast?_append {p : Char → Prop} {t : List Char} (s : List Char) (h : ∃ c ∈ t.getLast?, p c) :
    ∃ c ∈ (s ++ t).getLast?, p c := by
  obtain ⟨c, hc, hp⟩ := h
  exact ⟨c, List.mem_getLast?_append_of_mem_getLast? hc, hp⟩

/-- A plain word occurs up to case where it stands between white space. -/
theorem occurs_of_white (term before part after : String) (hne : term.toList ≠ [])
    (hplain : Text.IsPlain (term.toList.map Char.toLower)) (h : Folds term.toList part.toList)
    (hbefore : ∃ c ∈ before.toList.getLast?, isWhite c) (hafter : ∃ c ∈ after.toList.head?, isWhite c) :
    Occurs term before part after := by
  obtain ⟨hhead, hlast⟩ := ends_of_folds _ _ hne hplain h
  exact ⟨h, isBoundary_of_white_word _ _ hbefore (exists_head?_append _ hhead),
    isBoundary_of_word_white _ _ (exists_getLast?_append _ hlast) hafter⟩

/-- White space with a character of a class behind it starts with white space. -/
theorem StartsSpaced.head_isWhite {cls : CharClass} {s : List Char} (h : StartsSpaced cls s) :
    ∃ c ∈ s.head?, isWhite c := by
  obtain ⟨white, rest, rfl, hwhite, -⟩ := h
  exact exists_head?_append rest (ends_of_isRun .space white hwhite).1

/-- Where an order phrase is taken, the word `by` stands between a verb of sorting and another word. -/
theorem exists_inOrderPhrase (u v : List Char) (h : Lexicon.orderPhrase.runs u.getLast? v ≠ []) :
    ∃ before part after, String.ofList (u ++ v) = before ++ part ++ after ∧ Occurs "by" before part after
      ∧ InOrderPhrase before part after := by
  obtain ⟨hstarts, verb, hverb, white, hwhite, part, hpart, hkey⟩ := (runs_orderPhrase_ne_nil_iff _ v).mp h
  obtain ⟨term, hterm, hlit⟩ := (mem_runs_oneOf orderVerbs (List.cons_ne_nil _ _) _ v verb).mp hverb
  obtain ⟨hverbfolds, rfl, -⟩ := (mem_runs_lit term _ v verb).mp hlit
  obtain ⟨⟨hrun, -⟩, -⟩ := wholeRun_of_mem_runs .space _ _ white hwhite
  obtain ⟨hpartfolds, hwhiterest, -⟩ := (mem_runs_lit "by" _ _ part).mp hpart
  obtain ⟨hwhitehead, hwhitelast⟩ := ends_of_isRun .space _ hrun
  have hverbrest := taken_append_rest _ _ _ white hwhite
  rw [← hverbrest, hwhiterest] at hstarts ⊢
  refine ⟨String.ofList u ++ String.ofList verb.taken ++ String.ofList white.taken,
    String.ofList part.taken, String.ofList part.rest, ?_, ?_, ⟨_, _, _, rfl, ?_, term, hterm, ?_, ?_, ?_⟩, ?_⟩
  · simp only [String.ofList_append, String.append_assoc]
  · refine occurs_of_white _ _ _ _ by_isPlain.1 by_isPlain.2
      (by simpa only [String.toList_ofList] using hpartfolds) ?_ ?_
    · simp only [String.toList_append, String.toList_ofList]
      exact exists_getLast?_append _ hwhitelast
    · rw [String.toList_ofList]
      exact hkey.head_isWhite
  · rwa [String.toList_ofList]
  · rwa [String.toList_ofList]
  · simpa only [String.toList_append, String.toList_ofList, List.append_assoc] using hstarts
  · obtain ⟨hverbne, hverbplain⟩ := orderVerbs_isPlain term hterm
    obtain ⟨-, hverblast⟩ := ends_of_folds _ _ hverbne hverbplain hverbfolds
    simp only [String.toList_append, String.toList_ofList, List.append_assoc]
    exact isBoundary_of_word_white _ _ (exists_getLast?_append _ hverblast) (exists_head?_append _ hwhitehead)
  · rwa [String.toList_ofList]

/-- An order phrase is taken where the word `by` stands between a verb of sorting and another word. -/
theorem InOrderPhrase.exists_runs {before part after : String} (h : InOrderPhrase before part after)
    (hoccurs : Occurs "by" before part after) :
    ∃ u v, (before ++ part ++ after).toList = u ++ v ∧ Lexicon.orderPhrase.runs u.getLast? v ≠ [] := by
  obtain ⟨⟨earlier, verb, white, rfl, hwhite, term, hterm, hverb⟩, hkey⟩ := h
  obtain ⟨hparthead, -⟩ := ends_of_folds _ _ by_isPlain.1 by_isPlain.2 hoccurs.folds
  -- the white space ends where the word behind it starts
  have hend : ∀ c ∈ (part.toList ++ after.toList).head?, CharClass.space.contains c = false := by
    intro c hc
    obtain ⟨d, hd, hword⟩ := exists_head?_append after.toList hparthead
    obtain rfl := Option.mem_unique hc hd
    exact Text.isWhite_of_isWordChar c hword
  have hspaces := runs_run .space (lastOf earlier.toList.getLast? verb.toList) white.toList
    (part.toList ++ after.toList) hwhite hend
  refine ⟨earlier.toList, verb.toList ++ (white.toList ++ (part.toList ++ after.toList)),
    by simp only [String.toList_append, List.append_assoc], ?_⟩
  refine (runs_orderPhrase_ne_nil_iff _ _).mpr ⟨?_,
    ⟨verb.toList, white.toList ++ (part.toList ++ after.toList), []⟩, ?_,
    ⟨white.toList, part.toList ++ after.toList, []⟩, ?_, ⟨part.toList, after.toList, []⟩, ?_, hkey⟩
  · simpa only [String.toList_append, List.append_assoc] using hverb.starts
  · rw [mem_runs_oneOf orderVerbs (List.cons_ne_nil _ _)]
    exact ⟨term, hterm, (mem_runs_lit term _ _ _).mpr ⟨hverb.folds, rfl, rfl⟩⟩
  · rw [spaces, hspaces]
    exact List.mem_cons_self
  · exact (mem_runs_lit "by" _ _ _).mpr ⟨hoccurs.folds, rfl, rfl⟩

/-- **An order phrase** occurs where the word `by` stands between a verb of sorting and another word. -/
theorem occursIn_orderPhrase (text : String) :
    Lexicon.orderPhrase.occursIn text
      ↔ ∃ before part after, text = before ++ part ++ after ∧ Occurs "by" before part after
          ∧ InOrderPhrase before part after := by
  have hplace : ∀ u : List Char, lastOf none u = u.getLast? := fun u => Option.or_none
  rw [occursIn_iff_runs]
  simp only [hplace]
  constructor
  · rintro ⟨u, v, htext, hruns⟩
    have hphrase := exists_inOrderPhrase u v hruns
    rwa [← htext, String.ofList_toList] at hphrase
  · rintro ⟨before, part, after, rfl, hoccurs, hphrase⟩
    exact hphrase.exists_runs hoccurs

/-! ## The cue for groups -/

/-- What is equal up to case to two texts, one after the other, has two parts that are equal to them. -/
theorem Folds.exists_append {u v part : List Char} (h : Folds (u ++ v) part) :
    ∃ first second, part = first ++ second ∧ Folds u first ∧ Folds v second :=
  ⟨part.take u.length, part.drop u.length, (List.take_append_drop _ _).symm,
    (List.forall₂_take_append part u v h.flip).flip, (List.forall₂_drop_append part u v h.flip).flip⟩

/-- A text with a phrase has the last word of the phrase. -/
theorem HasWhole.last_word {text first word : String} (h : HasWhole text (first ++ " " ++ word))
    (hne : word.toList ≠ []) (hplain : Text.IsPlain (word.toList.map Char.toLower)) : HasWhole text word := by
  obtain ⟨before, part, after, rfl, hoccurs⟩ := h
  obtain ⟨folds, -, ends⟩ := hoccurs
  rw [String.toList_append] at folds
  obtain ⟨front, last, hpart, hfront, hlast⟩ := folds.exists_append
  have hspace : ∃ c ∈ (before.toList ++ front).getLast?, isWhite c := by
    rw [String.toList_append] at hfront
    obtain ⟨_, space, rfl, -, hspace⟩ := hfront.exists_append
    have hcons : Folds [' '] space := hspace
    cases hcons with
    | cons hfold hnil =>
        cases hnil
        obtain rfl := eq_of_foldChar_eq _ ' ' (by decide) (by decide) (beq_iff_eq.mp hfold).symm
        exact ⟨' ', by simp, by decide⟩
  obtain ⟨hhead, -⟩ := ends_of_folds _ _ hne hplain hlast
  refine ⟨before ++ String.ofList front, String.ofList last, after, ?_, ?_, ?_, ?_⟩
  · congr 1
    rw [String.append_assoc, ← String.ofList_append, ← hpart, String.ofList_toList]
  · rwa [String.toList_ofList]
  · simp only [String.toList_append, String.toList_ofList]
    exact isBoundary_of_white_word _ _ hspace (exists_head?_append _ hhead)
  · simpa only [String.toList_append, String.toList_ofList, List.append_assoc, ← hpart] using ends

/-- **The cue for groups** is the word `per` or `by`, whatever stands before it. -/
theorem occursIn_groupingCue (text : String) :
    Lexicon.groupingCue.occursIn text ↔ HasWhole text "per" ∨ HasWhole text "by" := by
  have hphrase : ∀ first, HasWhole text (first ++ " " ++ "by") → HasWhole text "by" :=
    fun first h => h.last_word by_isPlain.1 by_isPlain.2
  rw [Lexicon.groupingCue, Lexicon.phrase, occursIn_whole_oneOf _ (List.cons_ne_nil _ _)]
  simp only [List.exists_mem_cons_iff, List.not_mem_nil, false_and, exists_false, or_false]
  constructor
  · rintro (h | h | h | h | h | h | h)
    · exact .inr (hphrase "group" h)
    · exact .inr (hphrase "grouped" h)
    · exact .inl h
    · exact .inr h
    · exact .inr (hphrase "categorized" h)
    · exact .inr (hphrase "segmented" h)
    · exact .inr (hphrase "broken down" h)
  · rintro (h | h)
    · exact .inr (.inr (.inl h))
    · exact .inr (.inr (.inr (.inl h)))

end Pattern

open Pattern

namespace Intent

open Lexicon Sql

/-! ## Requests for an order only -/

/-- A text only asks for an order: it has the word `by` in order phrases only, it does not have the word `per`,
and it has no cue for an aggregated result. -/
structure SortsOnly (text : String) : Prop where
  sorts : ∀ before part after, text = before ++ part ++ after → Occurs "by" before part after →
    InOrderPhrase before part after
  noPer : ¬ HasWhole text "per"
  noAggregate : aggregationCue.occursIn text = false

instance (before part after : String) : Decidable (InOrderPhrase before part after) :=
  decidable_of_iff ((∃ term ∈ orderVerbs, ∃ parts ∈ partsOf term.toList.length before,
      Occurs term parts.1 parts.2.1 (parts.2.2 ++ part ++ after) ∧ IsRun .space parts.2.2.toList)
      ∧ (spaces ++ word).runs none after.toList ≠ []) <| by
    refine and_congr ?_ (runs_spaces_run_ne_nil_iff .word Text.isWhite_of_isWordChar none after.toList)
    simp only [Prod.exists]
    constructor
    · rintro ⟨term, hterm, earlier, verb, white, hparts, hoccurs, hwhite⟩
      exact ⟨earlier, verb, white, eq_of_mem_partsOf hparts, hwhite, term, hterm, hoccurs⟩
    · rintro ⟨earlier, verb, white, rfl, hwhite, term, hterm, hoccurs⟩
      exact ⟨term, hterm, earlier, verb, white, mem_partsOf_of_folds hoccurs.folds, hoccurs, hwhite⟩

instance (text : String) : Decidable (SortsOnly text) :=
  decidable_of_iff ((∀ parts ∈ partsOf "by".toList.length text,
      Occurs "by" parts.1 parts.2.1 parts.2.2 → InOrderPhrase parts.1 parts.2.1 parts.2.2)
      ∧ ¬ HasWhole text "per" ∧ aggregationCue.occursIn text = false) <| by
    simp only [Prod.forall]
    constructor
    · rintro ⟨hsorts, hper, haggregate⟩
      refine ⟨?_, hper, haggregate⟩
      rintro before part after rfl hoccurs
      exact hsorts before part after (mem_partsOf_of_folds hoccurs.folds) hoccurs
    · intro h
      refine ⟨fun before part after hparts => ?_, h.noPer, h.noAggregate⟩
      exact h.sorts before part after (eq_of_mem_partsOf hparts)

/-- Where a text only asks for an order, the cue for groups is the order phrase. -/
theorem SortsOnly.groupingCue_eq {text : String} (h : SortsOnly text) :
    groupingCue.occursIn text = orderPhrase.occursIn text := by
  rw [Bool.eq_iff_iff, occursIn_groupingCue, occursIn_orderPhrase, or_iff_right h.noPer]
  constructor
  · rintro ⟨before, part, after, htext, hoccurs⟩
    exact ⟨before, part, after, htext, hoccurs, h.sorts before part after htext hoccurs⟩
  · rintro ⟨before, part, after, htext, hoccurs, -⟩
    exact ⟨before, part, after, htext, hoccurs⟩

/-! ## Groups of a request for an order -/

/-- The words for a span of time. -/
def grainWords : TimeGrain → List String
  | .day => ["daily", "day", "days"]
  | .week => ["weekly", "week", "weeks"]
  | .month => ["monthly", "month", "months"]
  | .quarter => ["quarterly", "quarter", "quarters"]
  | .year => ["yearly", "year", "years"]

/-- The spans of time in the order in which they are looked for. -/
def grainOrder : List TimeGrain := [.day, .month, .year, .quarter, .week]

/-- The spans of time that are found in a text are those that it names. -/
theorem mem_firsts_timeGrainRules (text : String) (grain : TimeGrain) :
    grain ∈ timeGrainRules.firsts () text ↔ ∃ word ∈ grainWords grain, HasWhole text word := by
  have hgrains : grain ∈ grainOrder := by cases grain <;> decide
  have hwords : grainWords grain ≠ [] := by cases grain <;> exact List.cons_ne_nil _ _
  -- the name of a rule is the first word of its phrase
  have hfirsts := firsts_of_phrases timeGrainRules grainOrder (fun grain => (grainWords grain).headD "")
    grainWords rfl text
  rw [hfirsts, List.mem_filter, and_iff_right hgrains]
  exact occursIn_whole_oneOf _ hwords text

/-- A key that a question with the given projection suggests to group by: a column worth grouping by that is
projected or mentioned, or a span of time of orders that is named. -/
inductive SuggestedKey (s : Selection) (items : List SelectItem) : Expr → Prop
  | column (table column : String) (htable : table ∈ s.tables) (hworth : column ∈ groupingCandidates table)
      (hcolumn : s.schema.hasColumn table column)
      (hshown : (∃ item ∈ items, item.expr = .of table column) ∨ s.schema.mentionsColumn s.text column) :
      SuggestedKey s items (.of table column)
  | grain (grain : TimeGrain) (horders : s.has "orders")
      (hnamed : ∃ word ∈ grainWords grain, HasWhole s.text word) :
      SuggestedKey s items (.truncated grain (.of "orders" "order_date"))

/-- The columns worth grouping by and the spans of time that a question gathers are the keys that it
suggests. -/
theorem mem_groupColumns_append_groupGrains (s : Selection) (items : List SelectItem) (key : Expr) :
    key ∈ s.tables.flatMap (groupColumns s items) ++ groupGrains s ↔ SuggestedKey s items key := by
  rw [List.mem_append]
  constructor
  · rintro (hkey | hkey)
    · obtain ⟨table, htable, hkey⟩ := List.mem_flatMap.mp hkey
      obtain ⟨column, hcolumn, rfl⟩ := List.mem_map.mp hkey
      obtain ⟨hworth, hchosen⟩ := List.mem_filter.mp hcolumn
      simp only [Bool.and_eq_true, Bool.or_eq_true, List.any_eq_true, decide_eq_true_eq] at hchosen
      exact .column table column htable hworth hchosen.1 hchosen.2
    · unfold groupGrains at hkey
      split at hkey
      · next horders =>
          obtain ⟨grain, hgrain, rfl⟩ := List.mem_map.mp hkey
          exact .grain grain horders ((mem_firsts_timeGrainRules s.text grain).mp hgrain)
      · cases hkey
  · rintro (⟨table, column, htable, hworth, hcolumn, hshown⟩ | ⟨grain, horders, hnamed⟩)
    · refine .inl (List.mem_flatMap.mpr ⟨table, htable, List.mem_map.mpr ⟨column, ?_, rfl⟩⟩)
      refine List.mem_filter.mpr ⟨hworth, ?_⟩
      simp only [Bool.and_eq_true, Bool.or_eq_true, List.any_eq_true, decide_eq_true_eq]
      exact ⟨hcolumn, hshown⟩
    · refine .inr ?_
      rw [groupGrains, if_pos horders]
      exact List.mem_map.mpr ⟨grain, (mem_firsts_timeGrainRules s.text grain).mpr hnamed, rfl⟩

/-- Without a cue for an aggregate, a question with a cue for groups has the keys that it suggests. -/
theorem mem_groupsOf_of_noAggregate (s : Selection) (items : List SelectItem)
    (h : aggregationCue.occursIn s.text = false) (key : Expr) :
    key ∈ groupsOf s items ↔ groupingCue.occursIn s.text ∧ SuggestedKey s items key := by
  rw [← mem_groupColumns_append_groupGrains]
  unfold groupsOf
  simp only [h, Bool.not_false, Bool.and_true, Bool.false_eq_true, if_false]
  cases groupingCue.occursIn s.text with
  | false => simp
  | true =>
      have hmem := mem_foldl_addNew [] (s.tables.flatMap (groupColumns s items) ++ groupGrains s) key
      simp only [List.not_mem_nil, false_or] at hmem
      simp only [Bool.not_true, Bool.false_eq_true, if_false, true_and, ← hmem]
      split
      · next hnil => rw [hnil]
      · rfl

/-- **A request for an order is grouped.** A question that only asks for an order is grouped exactly if it has
an order phrase and suggests some key; its groups are then the keys that it suggests, each of them once. -/
theorem groupsOf_of_sortsOnly (s : Selection) (items : List SelectItem) (h : SortsOnly s.text) :
    (∀ key, key ∈ groupsOf s items ↔ orderPhrase.occursIn s.text ∧ SuggestedKey s items key)
      ∧ (groupsOf s items).Nodup
      ∧ (groupsOf s items = []
          ↔ orderPhrase.occursIn s.text = false ∨ ∀ key, ¬ SuggestedKey s items key) := by
  have hkeys : ∀ key, key ∈ groupsOf s items ↔ orderPhrase.occursIn s.text ∧ SuggestedKey s items key := by
    intro key
    rw [mem_groupsOf_of_noAggregate s items h.noAggregate, h.groupingCue_eq]
  refine ⟨hkeys, nodup_groupsOf s items, ?_⟩
  rw [List.eq_nil_iff_forall_not_mem]
  simp only [hkeys, not_and]
  cases orderPhrase.occursIn s.text <;> simp

/-- A schema with a table of people, their names and their addresses. -/
def addressedSchema : Schema where
  tables := [⟨"customers", ["customer_id", "name", "email"]⟩]
  tableAliases := []
  columnAliases := []
  relationships := []
  metrics := []
  timePhrases := []

/-- Customers sorted by their address are not grouped, since it is not worth grouping by; sorted by their name,
they are grouped by it. -/
theorem groupsOf_of_sortsOnly_addressedSchema :
    let addressed : Selection := ⟨addressedSchema, ["customers"], "customers sorted by email"⟩
    let named : Selection := ⟨addressedSchema, ["customers"], "customers sorted by name"⟩
    SortsOnly addressed.text ∧ groupsOf addressed (projectionOf addressed) = []
      ∧ SortsOnly named.text ∧ (.of "customers" "name") ∈ groupsOf named (projectionOf named) := by
  intro addressed named
  have haddressed : SortsOnly addressed.text := by decide +kernel
  have hnamed : SortsOnly named.text := by decide +kernel
  have hnone : addressed.tables.flatMap (groupColumns addressed (projectionOf addressed))
      ++ groupGrains addressed = [] := by decide +kernel
  have hmentioned : named.schema.mentionsColumn named.text "name" := by decide +kernel
  obtain ⟨-, -, hempty⟩ := groupsOf_of_sortsOnly addressed (projectionOf addressed) haddressed
  obtain ⟨hkeys, -, -⟩ := groupsOf_of_sortsOnly named (projectionOf named) hnamed
  refine ⟨haddressed, hempty.mpr (.inr fun key => ?_), hnamed, (hkeys _).mpr ⟨by decide +kernel, ?_⟩⟩
  · rw [← mem_groupColumns_append_groupGrains, hnone]
    exact List.not_mem_nil
  · exact .column "customers" "name" (by decide) (by decide) (by decide +kernel) (.inr hmentioned)

/-- A question for customers in the order of their names, in normal form, only asks for an order and is yet
grouped. -/
theorem not_ungrouped_addressedSchema :
    let s : Selection := ⟨addressedSchema, ["customers"], "customers sorted by name"⟩
    Normalize.cleanText addressedSchema.vocabulary "Customers sorted by name." = s.text
      ∧ tablesOf addressedSchema s.text = s.tables
      ∧ SortsOnly s.text
      ∧ orderOf s = [⟨.of "customers" "name", .ascending⟩]
      ∧ groupsOf s (projectionOf s) ≠ []
      ∧ groupsOf s (projectionOf s) = [.of "customers" "name"] := by
  intro s
  have hgroups : groupsOf s (projectionOf s) = [.of "customers" "name"] := by decide +kernel
  have hgrouped : groupsOf s (projectionOf s) ≠ [] := by
    rw [hgroups]
    exact List.cons_ne_nil _ _
  exact ⟨by decide +kernel, by decide +kernel, by decide +kernel, by decide +kernel, hgrouped, hgroups⟩

end Intent

end TextToSql
