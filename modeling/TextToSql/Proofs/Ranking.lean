import TextToSql.Intent.Ordering
import TextToSql.Normalize
import TextToSql.Proofs.Intent.Filter
import TextToSql.Proofs.Pattern.Occurrence
import TextToSql.Proofs.Pattern.Operand

/-!
# Thresholds and rankings

The order of a question that has no order phrase and no word of rank. The words `most` and `least` end the
comparisons `at most` and `at least`, and with a number they are cues for the rows at the top and at the
bottom. A cue is a word and the number behind it, whatever stands before the word: so a threshold is taken for
a ranking as well, and the rows are sorted by a guessed measure.

* `occursIn_counted` : a cue occurs where a text has one of its words with a number;
* `Intent.askedKey?_of_noOrderPhrase` : the key of a question without an order phrase;
* `Intent.orderOf_of_unranked` : the order of a question with neither an order phrase nor a word of rank.
-/

namespace TextToSql

open Unicode

namespace Pattern

/-! ## Terms with a number -/

/-- A text starts with white space and a number behind it. -/
def StartsCounted (s : List Char) : Prop :=
  ∃ white number, s = white ++ number ∧ IsRun .space white ∧ ∃ d ∈ number.head?, isDecimalDigit d

/-- A text has a term with a number: the term stands as a whole word before white space and a number. -/
def HasCounted (text term : String) : Prop :=
  ∃ before part after, text = before ++ part ++ after ∧ Occurs term before part after
    ∧ StartsCounted after.toList

/-- A text has a term, up to case, be it inside a word. -/
def HasInside (text term : String) : Prop :=
  ∃ before part after, text = before ++ part ++ after ∧ Folds term.toList part.toList

/-- A term with a number is in the text. -/
theorem HasCounted.hasInside {text term : String} (h : HasCounted text term) : HasInside text term := by
  obtain ⟨before, part, after, htext, hoccurs, -⟩ := h
  exact ⟨before, part, after, htext, hoccurs.folds⟩

/-- Two patterns match one after the other where the second one matches behind a run of the first. -/
theorem runs_append_ne_nil_iff (p q : Pattern) (before : Option Char) (s : List Char) :
    (p ++ q).runs before s ≠ []
      ↔ ∃ r ∈ p.runs before s, q.runs (lastOf before r.taken) r.rest ≠ [] := by
  constructor
  · intro hruns
    obtain ⟨_, hr⟩ := List.exists_mem_of_ne_nil _ hruns
    obtain ⟨r₁, hr₁, r₂, hr₂, rfl⟩ := mem_runs_append.mp hr
    exact ⟨r₁, hr₁, List.ne_nil_of_mem hr₂⟩
  · rintro ⟨r₁, hr₁, hruns⟩
    obtain ⟨r₂, hr₂⟩ := List.exists_mem_of_ne_nil _ hruns
    exact List.ne_nil_of_mem (mem_runs_append.mpr ⟨r₁, hr₁, r₂, hr₂, rfl⟩)

/-- A text starts with white space and a character of a class behind it. -/
def StartsSpaced (cls : CharClass) (s : List Char) : Prop :=
  ∃ white rest, s = white ++ rest ∧ IsRun .space white ∧ ∃ c ∈ rest.head?, cls.contains c

/-- White space and a run of a class are taken where they stand. -/
theorem runs_spaces_run_ne_nil_iff (cls : CharClass) (hcls : ∀ c, cls.contains c → isWhite c = false)
    (before : Option Char) (s : List Char) :
    (spaces ++ run cls).runs before s ≠ [] ↔ StartsSpaced cls s := by
  rw [runs_append_ne_nil_iff]
  constructor
  · rintro ⟨r, hr, hrun⟩
    obtain ⟨⟨hwhite, -⟩, -⟩ := wholeRun_of_mem_runs .space before s r hr
    obtain ⟨r', hr'⟩ := List.exists_mem_of_ne_nil _ hrun
    exact ⟨r.taken, r.rest, (taken_append_rest _ _ _ r hr).symm, hwhite,
      exists_head_of_mem_runs (p := run cls) rfl _ _ r' hr'⟩
  -- the white space is taken up to the run, since the class has no white space
  · rintro ⟨white, rest, rfl, hwhite, c, hc, hclass⟩
    have hend : ∀ d ∈ rest.head?, CharClass.space.contains d = false := by
      intro d hd
      obtain rfl := Option.mem_unique hd hc
      exact hcls d hclass
    have hspaces : spaces.runs before (white ++ rest) = [⟨white, rest, []⟩] :=
      runs_run .space before white rest hwhite hend
    refine ⟨⟨white, rest, []⟩, by rw [hspaces]; exact List.mem_cons_self, ?_⟩
    obtain ⟨rest', rfl⟩ := List.head?_eq_some_iff.mp hc
    have htake : takeRun? cls (c :: rest')
        = some (c :: rest'.takeWhile cls.contains, rest'.dropWhile cls.contains) := if_pos hclass
    simp [runs, htake]

/-- White space and a number are taken where they stand. -/
theorem runs_spaces_digits_ne_nil_iff (before : Option Char) (s : List Char) :
    (spaces ++ digits).runs before s ≠ [] ↔ StartsCounted s := by
  refine runs_spaces_run_ne_nil_iff .digit (fun c hc => ?_) before s
  exact Text.isWhite_of_isWordChar c (Intent.isWordChar_of_isDecimalDigit c hc)

/-- **A cue with a number occurs exactly where a text has one of its words with a number.** -/
theorem occursIn_counted (terms : List String) (hne : terms ≠ []) (text : String) :
    (whole (oneOf terms) ++ spaces ++ digits).occursIn text ↔ ∃ term ∈ terms, HasCounted text term := by
  rw [occursIn_iff_runs]
  simp only [runs_append_assoc, runs_append_ne_nil_iff (whole (oneOf terms)),
    runs_spaces_digits_ne_nil_iff]
  exact exists_run_whole_oneOf_iff terms hne text StartsCounted

/-- Terms without word boundaries occur exactly where a text has one of them. -/
theorem occursIn_oneOf (terms : List String) (hne : terms ≠ []) (text : String) :
    (oneOf terms).occursIn text ↔ ∃ term ∈ terms, HasInside text term := by
  rw [occursIn_iff_runs]
  constructor
  · rintro ⟨u, v, htext, hruns⟩
    obtain ⟨r, hr⟩ := List.exists_mem_of_ne_nil _ hruns
    obtain ⟨term, hterm, hlit⟩ := (mem_runs_oneOf terms hne _ v r).mp hr
    obtain ⟨hfolds, rfl, -⟩ := (mem_runs_lit term _ v r).mp hlit
    exact ⟨term, hterm, _, _, _, eq_append_of_toList text _ _ _ htext, by rwa [String.toList_ofList]⟩
  · rintro ⟨term, hterm, before, part, after, rfl, hfolds⟩
    refine ⟨before.toList, part.toList ++ after.toList,
      by simp only [String.toList_append, List.append_assoc], ?_⟩
    refine List.ne_nil_of_mem (a := ⟨part.toList, after.toList, []⟩) ?_
    rw [mem_runs_oneOf terms hne]
    exact ⟨term, hterm, (mem_runs_lit term _ _ _).mpr ⟨hfolds, rfl, rfl⟩⟩

instance (text term : String) : Decidable (HasCounted text term) :=
  decidable_of_iff ((whole (oneOf [term]) ++ spaces ++ digits).occursIn text) <| by
    rw [occursIn_counted [term] (List.cons_ne_nil _ _)]
    simp

instance (text term : String) : Decidable (HasInside text term) :=
  decidable_of_iff ((oneOf [term]).occursIn text) <| by
    rw [occursIn_oneOf [term] (List.cons_ne_nil _ _)]
    simp

end Pattern

open Pattern

namespace Intent

open Lexicon Sql

/-! ## Keys without an order phrase -/

/-- The key of a question without an order phrase is guessed, where its text has a word of a cue with a
number; a cue for the rows at the top goes first. -/
theorem askedKey?_of_noOrderPhrase (s : Selection) (text : String)
    (h : orderPhrase.occursIn s.text = false) :
    askedKey? s text
      = if ∃ word ∈ ["top", "highest", "best", "most"], HasCounted s.text word then
          some ⟨guessedKey text, .descending⟩
        else if ∃ word ∈ ["bottom", "lowest", "worst", "least"], HasCounted s.text word then
          some ⟨guessedKey text, .ascending⟩
        else none := by
  have hnone : orderPhrase.find? s.text = none := by
    rwa [occursIn, Option.isSome_eq_false_iff, Option.isNone_iff_eq_none] at h
  have htop := occursIn_counted ["top", "highest", "best", "most"] (List.cons_ne_nil _ _) s.text
  have hbottom := occursIn_counted ["bottom", "lowest", "worst", "least"] (List.cons_ne_nil _ _) s.text
  rw [askedKey?, hnone]
  exact if_congr htop rfl (if_congr hbottom rfl rfl)

/-- The words of rank. -/
def rankWords : List String := ["top", "highest", "best", "bottom", "lowest", "worst"]

/-- A text without an order phrase and without words of rank, be they inside other words. -/
structure Unranked (text : String) : Prop where
  noPhrase : orderPhrase.occursIn text = false
  noRank : ∀ word ∈ rankWords, ¬ HasInside text word

instance (text : String) : Decidable (Unranked text) :=
  decidable_of_iff (orderPhrase.occursIn text = false ∧ ∀ word ∈ rankWords, ¬ HasInside text word)
    ⟨fun ⟨hphrase, hrank⟩ => ⟨hphrase, hrank⟩, fun h => ⟨h.noPhrase, h.noRank⟩⟩

/-- Among the words of a cue, only one that is no word of rank can stand in a text without these. -/
theorem Unranked.exists_hasCounted_iff {text : String} (h : Unranked text) (words : List String)
    (word : String) (hwords : ∀ w ∈ words, w = word ∨ w ∈ rankWords) (hword : word ∈ words) :
    (∃ w ∈ words, HasCounted text w) ↔ HasCounted text word := by
  constructor
  · rintro ⟨w, hw, hcounted⟩
    rcases hwords w hw with rfl | hrank
    · exact hcounted
    · exact absurd hcounted.hasInside (h.noRank w hrank)
  · exact fun hcounted => ⟨word, hword, hcounted⟩

/-- A question with neither an order phrase nor a word of rank is ordered by a guessed key where its text has
`most` or `least` with a number, and else not at all. -/
theorem orderOf_eq (s : Selection) (h : Unranked s.text) :
    orderOf s
      = if HasCounted s.text "most" then [⟨guessedKey (Text.lowerOf s.text), .descending⟩]
        else if HasCounted s.text "least" then [⟨guessedKey (Text.lowerOf s.text), .ascending⟩]
        else [] := by
  -- all words of the two cues but `most` and `least` are words of rank
  have hmost := h.exists_hasCounted_iff ["top", "highest", "best", "most"] "most" (by decide) (by decide)
  have hleast := h.exists_hasCounted_iff ["bottom", "lowest", "worst", "least"] "least" (by decide)
    (by decide)
  have hranking : rankingCue.occursIn s.text = false := by
    rw [← Bool.not_eq_true]
    intro hoccurs
    obtain ⟨word, hword, hinside⟩ := (occursIn_oneOf rankWords (List.cons_ne_nil _ _) s.text).mp hoccurs
    exact h.noRank word hword hinside
  have hasked : orderOf s = (askedKey? s (Text.lowerOf s.text)).toList := by
    rw [orderOf, hranking]
    cases askedKey? s (Text.lowerOf s.text) <;> rfl
  rw [hasked, askedKey?_of_noOrderPhrase s _ h.noPhrase]
  simp only [hmost, hleast]
  split
  · rfl
  · split <;> rfl

/-! ## Thresholds -/

/-- A part of a text stands behind the word `at`, with nothing but white space between them. -/
def BehindAt (before part after : String) : Prop :=
  ∃ earlier word white, before = earlier ++ word ++ white ∧ Occurs "at" earlier word (white ++ part ++ after)
    ∧ IsRun .space white.toList

/-- Wherever a text has a word, it stands behind `at`. -/
def OnlyBehindAt (text word : String) : Prop :=
  ∀ before part after, text = before ++ part ++ after → Occurs word before part after →
    BehindAt before part after

/-- The ways to divide a text into three parts with `n` characters, or fewer at its end, in the second one. -/
def partsOf (n : Nat) (text : String) : List (String × String × String) :=
  (text.toList.inits.zip text.toList.tails).map fun (u, v) =>
    (String.ofList u, String.ofList (v.take n), String.ofList (v.drop n))

/-- The parts of a text make it up. -/
theorem eq_of_mem_partsOf {n : Nat} {text before part after : String}
    (h : (before, part, after) ∈ partsOf n text) : text = before ++ part ++ after := by
  obtain ⟨⟨u, v⟩, huv, hparts⟩ := List.mem_map.mp h
  rw [List.mem_zip_inits_tails] at huv
  simp only [Prod.mk.injEq] at hparts
  obtain ⟨rfl, rfl, rfl⟩ := hparts
  exact eq_append_of_toList text _ _ _ (by rw [List.take_append_drop, huv])

/-- Where a term occurs, the text is divided into parts. -/
theorem mem_partsOf_of_folds {term before part after : String} (h : Folds term.toList part.toList) :
    (before, part, after) ∈ partsOf term.toList.length (before ++ part ++ after) := by
  refine List.mem_map.mpr ⟨(before.toList, part.toList ++ after.toList), ?_, ?_⟩
  · rw [List.mem_zip_inits_tails, String.toList_append, String.toList_append, List.append_assoc]
  · simp [h.length_eq]

instance (before part after : String) : Decidable (BehindAt before part after) :=
  decidable_of_iff (∃ parts ∈ partsOf "at".toList.length before,
      Occurs "at" parts.1 parts.2.1 (parts.2.2 ++ part ++ after)
        ∧ parts.2.2.toList ≠ [] ∧ parts.2.2.toList.all isWhite) <| by
    simp only [Prod.exists, BehindAt, IsRun, List.all_eq_true, CharClass.contains]
    constructor
    · rintro ⟨earlier, word, white, hparts, hoccurs, hwhite⟩
      exact ⟨earlier, word, white, eq_of_mem_partsOf hparts, hoccurs, hwhite⟩
    · rintro ⟨earlier, word, white, rfl, hoccurs, hwhite⟩
      exact ⟨earlier, word, white, mem_partsOf_of_folds hoccurs.folds, hoccurs, hwhite⟩

instance (text word : String) : Decidable (OnlyBehindAt text word) :=
  decidable_of_iff (∀ parts ∈ partsOf word.toList.length text,
      Occurs word parts.1 parts.2.1 parts.2.2 → BehindAt parts.1 parts.2.1 parts.2.2) <| by
    simp only [Prod.forall, OnlyBehindAt]
    constructor
    · rintro h before part after rfl hoccurs
      exact h before part after (mem_partsOf_of_folds hoccurs.folds) hoccurs
    · intro h before part after hparts
      exact h before part after (eq_of_mem_partsOf hparts)

/-- A text has a threshold: the word `at`, a word behind it, and a number behind that. -/
def HasThreshold (text word : String) : Prop :=
  ∃ before part after, text = before ++ part ++ after ∧ Occurs word before part after
    ∧ BehindAt before part after ∧ StartsCounted after.toList

/-- Where a word stands behind `at` only, it has a number in a threshold only. -/
theorem OnlyBehindAt.hasCounted_iff {text word : String} (h : OnlyBehindAt text word) :
    HasCounted text word ↔ HasThreshold text word := by
  constructor
  · rintro ⟨before, part, after, htext, hoccurs, hcounted⟩
    exact ⟨before, part, after, htext, hoccurs, h before part after htext hoccurs, hcounted⟩
  · rintro ⟨before, part, after, htext, hoccurs, -, hcounted⟩
    exact ⟨before, part, after, htext, hoccurs, hcounted⟩

/-- **A threshold is taken for a ranking.** A question with neither an order phrase nor a word of rank is
sorted exactly if its text has `most` or `least` with a number: by a guessed measure, from the top for `most`
and from the bottom for `least`. So where the two words stand behind `at` only, it is in the order in which the
rows come exactly if its text has no threshold with a number. -/
theorem orderOf_of_unranked (s : Selection) (h : Unranked s.text) :
    (orderOf s
      = if HasCounted s.text "most" then [⟨guessedKey (Text.lowerOf s.text), .descending⟩]
        else if HasCounted s.text "least" then [⟨guessedKey (Text.lowerOf s.text), .ascending⟩]
        else [])
      ∧ (OnlyBehindAt s.text "most" → OnlyBehindAt s.text "least" →
          (orderOf s = [] ↔ ¬ HasThreshold s.text "most" ∧ ¬ HasThreshold s.text "least")) := by
  have horder := orderOf_eq s h
  refine ⟨horder, fun hmost hleast => ?_⟩
  rw [horder, ← hmost.hasCounted_iff, ← hleast.hasCounted_iff]
  split
  · next hcounted => simp [hcounted]
  · next hnot =>
      split
      · next hcounted => simp [hcounted]
      · next hnot' => simp [hnot, hnot']

/-- A schema with a table of people and their age. -/
def agedSchema : Schema where
  tables := [⟨"customers", ["customer_id", "age"]⟩]
  tableAliases := []
  columnAliases := []
  relationships := []
  metrics := []
  timePhrases := []

/-- A threshold in words leaves the rows as they come; one with a number sorts them. -/
theorem orderOf_of_unranked_agedSchema :
    let worded : Selection := ⟨agedSchema, ["customers"], "customers with age at least ten"⟩
    let counted : Selection := ⟨agedSchema, ["customers"], "customers with age at most 18"⟩
    Unranked worded.text ∧ OnlyBehindAt worded.text "most" ∧ OnlyBehindAt worded.text "least"
      ∧ orderOf worded = []
      ∧ Unranked counted.text
      ∧ orderOf counted = [⟨.aggregated .count (.of "orders" "order_id"), .descending⟩] := by
  intro worded counted
  have hworded : Unranked worded.text := by decide +kernel
  have hmost : OnlyBehindAt worded.text "most" := by decide +kernel
  have hleast : OnlyBehindAt worded.text "least" := by decide +kernel
  have hcounted : Unranked counted.text := by decide +kernel
  obtain ⟨-, hempty⟩ := orderOf_of_unranked worded hworded
  obtain ⟨horder, -⟩ := orderOf_of_unranked counted hcounted
  refine ⟨hworded, hmost, hleast, (hempty hmost hleast).mpr ⟨?_, ?_⟩, hcounted, ?_⟩
  · rw [← hmost.hasCounted_iff]
    decide +kernel
  · rw [← hleast.hasCounted_iff]
    decide +kernel
  · rw [horder]
    decide +kernel

/-- A question for the customers from some age on, in normal form, is filtered by the age and yet sorted, by a
column of another table. -/
theorem not_unordered_agedSchema :
    let s : Selection := ⟨agedSchema, ["customers"], "customers with age at least 18"⟩
    Normalize.cleanText agedSchema.vocabulary "Customers with age at least 18." = s.text
      ∧ tablesOf agedSchema s.text = s.tables
      ∧ filterOf s = some (.atom (.compare (.of "customers" "age") .atLeast (.number "18")))
      ∧ Unranked s.text ∧ OnlyBehindAt s.text "most" ∧ OnlyBehindAt s.text "least"
      ∧ orderOf s ≠ []
      ∧ orderOf s = [⟨.aggregated .count (.of "orders" "order_id"), .ascending⟩] := by
  intro s
  have htables : s.tables.isEmpty = false := rfl
  have htotal : totalAmountRules.first? s s.text = none := by decide +kernel
  have hconditions : rowConditions s
      = [.compare (.of "customers" "age") .atLeast (.number "18")] := by decide +kernel
  have horder : orderOf s = [⟨.aggregated .count (.of "orders" "order_id"), .ascending⟩] := by
    decide +kernel
  have hunordered : orderOf s ≠ [] := by
    rw [horder]
    exact List.cons_ne_nil _ _
  refine ⟨by decide +kernel, by decide +kernel, ?_, by decide +kernel, by decide +kernel, by decide +kernel,
    hunordered, horder⟩
  rw [filterOf, htables, htotal, hconditions]
  rfl

end Intent

end TextToSql
