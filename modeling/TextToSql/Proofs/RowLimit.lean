import TextToSql.Proofs.SortRequest

/-!
# Row limits

A row limit is the number behind a word of rank or order. The number is taken as a whole word, so that `last 70`
is never read as `last 7`, and the word behind it is taken up to its end, so that a span of time as in `last 70
days` is never read as a limit. A unit of time behind other signs, as in `first 3, days`, does not follow the
number.

* `Text.numeral?_eq_some_iff` : a numeral is read as the number that it writes;
* `Pattern.exists_countedText` : a cue with a number is taken where the number stands as a whole word;
* `Pattern.captures_of_head?_runs` : the word behind the number is captured wherever there is one;
* `Intent.limitOf_sound` : where a row limit comes from, and which numbers are none.
-/

namespace TextToSql

open Unicode

/-! ## Numbers in digits -/

namespace Text

/-- A text writes a number: its decimal form stands there, with zeros before it or without. -/
def Writes (s : List Char) (n : Nat) : Prop := ∃ zeros, s = List.replicate zeros '0' ++ n.repr.toList

/-- An ASCII digit is the decimal form of its value. -/
theorem toDigits_of_isDigit (d : Char) (h : d.isDigit) :
    d.toNat - '0'.toNat < 10 ∧ Nat.toDigits 10 (d.toNat - '0'.toNat) = [d] := by
  obtain ⟨hle, hge⟩ := Char.isDigit_iff_toNat.mp h
  change 48 ≤ d.toNat at hle
  change d.toNat ≤ 57 at hge
  have hlt : d.toNat - '0'.toNat < 10 := by
    change d.toNat - 48 < 10
    omega
  refine ⟨hlt, ?_⟩
  rw [Nat.toDigits_of_lt_base hlt, List.singleton_inj]
  apply Char.toNat_inj.mp
  rw [Nat.toNat_digitChar_of_lt_ten hlt]
  exact Nat.add_sub_cancel' hle

/-- One more digit makes ten times the number and the digit. -/
theorem Writes.concat {s : List Char} {n : Nat} (h : Writes s n) (d : Char) (hd : d.isDigit) :
    Writes (s ++ [d]) (10 * n + (d.toNat - '0'.toNat)) := by
  obtain ⟨zeros, rfl⟩ := h
  obtain ⟨hlt, hdigits⟩ := toDigits_of_isDigit d hd
  cases Nat.eq_zero_or_pos n with
  -- a zero before the digit is one more leading zero
  | inl hzero =>
      subst hzero
      refine ⟨zeros + 1, ?_⟩
      rw [Nat.mul_zero, Nat.zero_add, Nat.toList_repr, Nat.toList_repr, hdigits, Nat.toDigits_zero,
        List.replicate_succ']
  | inr hpos =>
      refine ⟨zeros, ?_⟩
      rw [Nat.toList_repr, Nat.toList_repr, ← Nat.toDigits_append_toDigits (by decide) hpos hlt, hdigits,
        List.append_assoc]

/-- ASCII digits write the number that they denote. -/
theorem writes_ofDigitChars (s : List Char) (hne : s ≠ []) (hs : ∀ c ∈ s, c.isDigit) :
    Writes s (Nat.ofDigitChars 10 s 0) := by
  induction s using List.reverseRecOn with
  | nil => exact absurd rfl hne
  | append_singleton s d ih =>
      rw [List.forall_mem_append, List.forall_mem_singleton] at hs
      have hvalue : Nat.ofDigitChars 10 (s ++ [d]) 0
          = 10 * Nat.ofDigitChars 10 s 0 + (d.toNat - '0'.toNat) := by
        rw [Nat.ofDigitChars_append, Nat.ofDigitChars_cons, Nat.ofDigitChars_nil]
      rw [hvalue]
      cases s with
      | nil =>
          refine ⟨0, ?_⟩
          rw [Nat.ofDigitChars_nil, Nat.mul_zero, Nat.zero_add, Nat.toList_repr,
            (toDigits_of_isDigit d hs.2).2]
          rfl
      | cons c s => exact (ih (List.cons_ne_nil _ _) hs.1).concat d hs.2

/-- What writes a number has ASCII digits only. -/
theorem Writes.isDigit {s : List Char} {n : Nat} (h : Writes s n) : s ≠ [] ∧ ∀ c ∈ s, c.isDigit := by
  obtain ⟨zeros, rfl⟩ := h
  rw [Nat.toList_repr]
  refine ⟨List.append_ne_nil_of_right_ne_nil _ Nat.toDigits_ne_nil, fun c hc => ?_⟩
  rcases List.mem_append.mp hc with hc | hc
  · rw [List.eq_of_mem_replicate hc]
    rfl
  · exact Nat.isDigit_of_mem_toDigits (by decide) (by decide) hc

/-- **A numeral is read as the number that it writes.** -/
theorem numeral?_eq_some_iff (s : List Char) (n : Nat) : numeral? s = some n ↔ Writes s n := by
  constructor
  · intro h
    rw [numeral?] at h
    split at h
    · cases h
    · next hdigits =>
        simp only [Bool.or_eq_true, List.isEmpty_iff, Bool.not_eq_true', not_or, Bool.not_eq_false,
          List.all_eq_true] at hdigits
        obtain rfl := Option.some.inj h
        exact writes_ofDigitChars s hdigits.1 hdigits.2
  · intro h
    obtain ⟨hne, hdigits⟩ := h.isDigit
    obtain ⟨zeros, rfl⟩ := h
    rw [numeral?, List.isEmpty_eq_false_iff.mpr hne, List.all_eq_true.mpr hdigits, Nat.ofDigitChars_append,
      Nat.ofDigitChars_replicate_zero, Nat.mul_zero, Nat.toList_repr,
      Nat.ofDigitChars_toDigits (by decide) (by decide)]
    rfl

/-- A text writes one number at most. -/
theorem Writes.unique {s : List Char} {n k : Nat} (hn : Writes s n) (hk : Writes s k) : n = k := by
  have hsame := ((numeral?_eq_some_iff s n).mpr hn).symm.trans ((numeral?_eq_some_iff s k).mpr hk)
  exact Option.some.inj hsame

end Text

namespace Pattern

open Lexicon

/-! ## The word behind a number -/

/-- A word stands behind white space at the start of a text, and it ends there. -/
def NextWord (s w : List Char) : Prop :=
  ∃ white rest, s = white ++ (w ++ rest) ∧ IsRun .space white ∧ WholeRun .word w rest

/-- The next word is captured. -/
theorem NextWord.exists_runs {s w : List Char} (h : NextWord s w) (before : Option Char) :
    ∃ taken rest, (spaces ++ capture word).runs before s = [⟨taken, rest, [w]⟩] := by
  obtain ⟨white, rest, rfl, hwhite, hword, hend⟩ := h
  have hstart : ∀ c ∈ (w ++ rest).head?, CharClass.space.contains c = false := by
    intro c hc
    obtain ⟨d, hd, hclass⟩ := exists_head?_append rest (ends_of_isRun .word w hword).1
    obtain rfl := Option.mem_unique hc hd
    exact Text.isWhite_of_isWordChar c hclass
  have hspaces : spaces.runs before (white ++ (w ++ rest)) = [⟨white, w ++ rest, []⟩] :=
    runs_run .space before white (w ++ rest) hwhite hstart
  have hcapture : (capture word).runs (lastOf before white) (w ++ rest) = [⟨w, rest, [w]⟩] := by
    rw [runs, word, runs_run .word _ w rest hword hend]
    rfl
  refine ⟨white ++ w, rest, ?_⟩
  show (seq spaces (capture word)).runs before _ = _
  rw [runs, hspaces, List.flatMap_singleton, hcapture]
  rfl

/-- There is one next word at most. -/
theorem NextWord.unique {s w w' : List Char} (h : NextWord s w) (h' : NextWord s w') : w = w' := by
  obtain ⟨taken, rest, hruns⟩ := h.exists_runs none
  obtain ⟨taken', rest', hruns'⟩ := h'.exists_runs none
  rw [hruns] at hruns'
  simp only [List.cons.injEq, Run.mk.injEq, and_true] at hruns'
  exact hruns'.2.2

/-- **The next word is captured wherever there is one**, and as a whole: to take no word at all is tried last, and
a part of a word is never tried. -/
theorem captures_of_head?_runs (before : Option Char) (s : List Char) (r : Run)
    (h : ((optional (spaces ++ capture word)).runs before s).head? = some r) :
    (∃ w, NextWord s w ∧ r.captures = [w]) ∨ ((∀ w, ¬ NextWord s w) ∧ r.captures = []) := by
  have hruns : (optional (spaces ++ capture word)).runs before s
      = (spaces ++ capture word).runs before s ++ [⟨[], s, []⟩] := rfl
  rw [hruns] at h
  cases hword : (spaces ++ capture word).runs before s with
  | nil =>
      rw [hword] at h
      obtain rfl := Option.some.inj h
      refine .inr ⟨fun w hw => ?_, rfl⟩
      obtain ⟨taken, rest, hsome⟩ := hw.exists_runs before
      rw [hword] at hsome
      cases hsome
  | cons r₁ rs =>
      rw [hword] at h
      obtain rfl := Option.some.inj h
      have hmem : r₁ ∈ (spaces ++ capture word).runs before s := by
        rw [hword]
        exact List.mem_cons_self
      obtain ⟨white, hwhite, r₂, hr₂, rfl⟩ := mem_runs_append.mp hmem
      obtain ⟨r₃, hr₃, rfl⟩ := List.mem_map.mp hr₂
      obtain ⟨⟨hspace, -⟩, hnone⟩ := wholeRun_of_mem_runs .space _ _ white hwhite
      obtain ⟨hwhole, hnone'⟩ := wholeRun_of_mem_runs .word _ _ r₃ hr₃
      refine .inl ⟨r₃.taken, ⟨white.taken, r₃.rest, ?_, hspace, hwhole⟩, ?_⟩
      · rw [taken_append_rest _ _ _ r₃ hr₃, taken_append_rest _ _ _ white hwhite]
      · simp [Run.followedBy, Run.captured, hnone, hnone']

/-! ## Cues with a number -/

/-- A word ends at a boundary behind it. -/
theorem isWordChar_of_isBoundary (before after : Option Char) (h : isBoundary before after)
    (hbefore : ∃ c ∈ before, isWordChar c) : ∀ c ∈ after, isWordChar c = false := by
  obtain ⟨c, hc, hword⟩ := hbefore
  intro d hd
  simpa [isBoundary, Option.mem_def.mp hc, Option.mem_def.mp hd, hword] using h

/-- What a cue with a number takes: the cue from a boundary on, white space, and a number up to the end of the
word. -/
theorem exists_of_mem_runs_counted (cue : String) (before : Option Char) (s : List Char) (r : Run)
    (hr : r ∈ (counted cue).runs before s) :
    isBoundary before s.head?
      ∧ ∃ part white number, s = part ++ (white ++ (number ++ r.rest)) ∧ Folds cue.toList part
        ∧ IsRun .space white ∧ IsRun .digit number ∧ (∀ c ∈ r.rest.head?, isWordChar c = false)
        ∧ r.captures = [number] := by
  have hrest := taken_append_rest _ _ _ r hr
  simp only [counted, runs_append_assoc, runs_boundary_append] at hr
  split at hr
  · next hstarts =>
      obtain ⟨part, hpart, r₁, hr₁, rfl⟩ := mem_runs_append.mp hr
      obtain ⟨white, hwhite, r₂, hr₂, rfl⟩ := mem_runs_append.mp hr₁
      obtain ⟨captured, hcaptured, r₃, hr₃, rfl⟩ := mem_runs_append.mp hr₂
      obtain ⟨number, hnumber, rfl⟩ := List.mem_map.mp hcaptured
      obtain ⟨hfolds, -, hnone⟩ := (mem_runs_lit cue _ _ part).mp hpart
      obtain ⟨⟨hspace, -⟩, hnone'⟩ := wholeRun_of_mem_runs .space _ _ white hwhite
      obtain ⟨⟨hdigits, -⟩, hnone''⟩ := wholeRun_of_mem_runs .digit _ _ number hnumber
      -- the digits are all of a word, as there is a boundary behind them
      rw [runs] at hr₃
      split at hr₃
      · next hends =>
          obtain rfl := List.mem_singleton.mp hr₃
          refine ⟨hstarts, part.taken, white.taken, number.taken, ?_, hfolds, hspace, hdigits, ?_, ?_⟩
          · simpa [Run.followedBy, Run.captured] using hrest.symm
          · obtain ⟨-, c, hc, hclass⟩ := ends_of_isRun .digit _ hdigits
            refine isWordChar_of_isBoundary _ _ hends ⟨c, ?_, Intent.isWordChar_of_isDecimalDigit c hclass⟩
            rw [lastOf, Run.captured, Option.mem_def.mp hc]
            rfl
          · simp [Run.followedBy, Run.captured, hnone, hnone', hnone'']
      · cases hr₃
  · cases hr

/-- A text with a cue and a number: the cue is a whole word up to case, behind it come white space and digits,
and these are a whole word as well. -/
structure CountedText (cue : String) where
  before : String
  part : String
  white : String
  number : String
  after : String
  occurs : Occurs cue before part (white ++ number ++ after)
  isSpace : IsRun .space white.toList
  isDigits : IsRun .digit number.toList
  ends : ∀ c ∈ after.toList.head?, isWordChar c = false

/-- The whole text. -/
def CountedText.text {cue : String} (place : CountedText cue) : String :=
  place.before ++ place.part ++ (place.white ++ place.number ++ place.after)

/-- **A cue with a number is taken where both are whole words.** -/
theorem exists_countedText (cue text : String) (hne : cue.toList ≠ [])
    (hplain : Text.IsPlain (cue.toList.map Char.toLower)) (u v : List Char) (htext : text.toList = u ++ v)
    (r : Run) (hr : r ∈ (counted cue).runs u.getLast? v) :
    ∃ place : CountedText cue, place.text = text ∧ place.before = String.ofList u
      ∧ place.after = String.ofList r.rest ∧ r.captures = [place.number.toList] := by
  obtain ⟨hstarts, part, white, number, rfl, hfolds, hspace, hdigits, hend, hcaptures⟩ :=
    exists_of_mem_runs_counted cue _ v r hr
  have hoccurs : Occurs cue (String.ofList u) (String.ofList part)
      (String.ofList white ++ String.ofList number ++ String.ofList r.rest) := by
    obtain ⟨-, hlast⟩ := ends_of_folds _ _ hne hplain hfolds
    obtain ⟨hhead, -⟩ := ends_of_isRun .space _ hspace
    refine ⟨?_, ?_, ?_⟩ <;> simp only [String.toList_append, String.toList_ofList, List.append_assoc]
    · exact hfolds
    · exact hstarts
    · exact isBoundary_of_word_white _ _ (exists_getLast?_append _ hlast) (exists_head?_append _ hhead)
  refine ⟨⟨_, _, _, _, _, hoccurs, ?_, ?_, ?_⟩, ?_, rfl, rfl, ?_⟩
  · rwa [String.toList_ofList]
  · rwa [String.toList_ofList]
  · rwa [String.toList_ofList]
  · apply String.toList_inj.mp
    simp [CountedText.text, htext]
  · rw [hcaptures, String.toList_ofList]

end Pattern

open Pattern

namespace Intent

open Lexicon Sql

/-! ## Limits of matches -/

/-- The cues for a row limit. -/
def limitCues : List String :=
  ["limit", "top", "first", "bottom", "last", "highest", "lowest", "best", "worst"]

/-- The cues for a row limit or, with a unit of time behind the number, for a span of time. -/
def spanCues : List String := ["first", "last"]

/-- The cues are plain words. -/
theorem limitCues_isPlain : ∀ cue ∈ limitCues,
    cue.toList ≠ [] ∧ Text.IsPlain (cue.toList.map Char.toLower) := by
  decide +kernel

/-- There is one rule for each cue. -/
theorem limitRules_eq : limitRules.rules
    = limitCues.map fun cue => if cue ∈ spanCues then spanRule cue else limitRule cue := rfl

/-- A unit of time is the next word behind a number. -/
def FollowedByUnit (after : String) : Prop := ∃ unit ∈ timeUnits, NextWord after.toList unit.toList

/-- **A numeral is a limit** if it writes a number from 1 to `2 ^ 64 - 1`. -/
theorem count?_eq_some_iff (digits : String) (n : Nat) :
    count? digits = some n ↔ Text.Writes digits.toList n ∧ 1 ≤ n ∧ n < 2 ^ 64 := by
  rw [count?, Option.filter_eq_some_iff, Text.numeral?_eq_some_iff, Bool.and_eq_true, decide_eq_true_eq,
    decide_eq_true_eq]
  rfl

/-- The limit of a captured number with the word behind it, if there is one. -/
theorem countWithoutUnit_eq_some_iff (number : String) (after : String) (captures : List String)
    (h : (∃ w, NextWord after.toList w ∧ captures = [number, String.ofList w])
      ∨ ((∀ w, ¬ NextWord after.toList w) ∧ captures = [number])) (n : Nat) :
    countWithoutUnit () captures = some n ↔ ¬ FollowedByUnit after ∧ count? number = some n := by
  rcases h with ⟨w, hw, rfl⟩ | ⟨hnone, rfl⟩
  · have hunit : FollowedByUnit after ↔ String.ofList w ∈ timeUnits := by
      constructor
      · rintro ⟨unit, hunit, hnext⟩
        rwa [hw.unique hnext, String.ofList_toList]
      · exact fun hmem => ⟨_, hmem, by rwa [String.toList_ofList]⟩
    rw [hunit, countWithoutUnit]
    by_cases hmem : String.ofList w ∈ timeUnits <;> simp [hmem]
  · have hunit : ¬ FollowedByUnit after := fun ⟨unit, _, hnext⟩ => hnone _ hnext
    rw [countWithoutUnit]
    exact (and_iff_right hunit).symm

/-- A match of a rule for a limit captures the number. -/
theorem exists_countedText_limitRule (cue : String) (hcue : cue ∈ limitCues) (text : String) (m : Match)
    (hm : m ∈ (limitRule cue).pattern.matchesIn text) :
    ∃ place : CountedText cue, place.text = text ∧ m.offset = place.before.utf8ByteSize
      ∧ m.captures = [place.number] := by
  obtain ⟨u, r, htext, hhead, rfl⟩ := (finds_matchesIn _ text).exists_place m hm
  have hlast : lastOf none u = u.getLast? := Option.or_none
  rw [hlast] at hhead
  obtain ⟨hne, hplain⟩ := limitCues_isPlain cue hcue
  obtain ⟨place, hplace, hbefore, -, hcaptures⟩ :=
    exists_countedText cue text hne hplain u _ htext r (List.mem_of_mem_head? hhead)
  refine ⟨place, hplace, ?_, ?_⟩
  · rw [hbefore, Run.toMatch, Nat.zero_add, String.utf8ByteSize_ofList]
  · rw [Run.toMatch, hcaptures, List.map_singleton, String.ofList_toList]

/-- A match of a rule for a limit or a span captures the number, and the word behind it if there is one. -/
theorem exists_countedText_spanRule (cue : String) (hcue : cue ∈ limitCues) (text : String) (m : Match)
    (hm : m ∈ (spanRule cue).pattern.matchesIn text) :
    ∃ place : CountedText cue, place.text = text ∧ m.offset = place.before.utf8ByteSize
      ∧ ((∃ w, NextWord place.after.toList w ∧ m.captures = [place.number, String.ofList w])
        ∨ ((∀ w, ¬ NextWord place.after.toList w) ∧ m.captures = [place.number])) := by
  obtain ⟨u, r, htext, hhead, rfl⟩ := (finds_matchesIn _ text).exists_place m hm
  have hlast : lastOf none u = u.getLast? := Option.or_none
  rw [hlast] at hhead
  obtain ⟨hne, hplain⟩ := limitCues_isPlain cue hcue
  obtain ⟨r₁, hr₁, r₂, hr₂, rfl⟩ := head?_runs_append (counted cue) _ _ _ r hhead
  obtain ⟨place, hplace, hbefore, hafter, hcaptures⟩ :=
    exists_countedText cue text hne hplain u _ htext r₁ hr₁
  have hword := captures_of_head?_runs _ _ r₂ hr₂
  refine ⟨place, hplace, ?_, ?_⟩
  · rw [hbefore, Run.toMatch, Nat.zero_add, String.utf8ByteSize_ofList]
  · rw [hafter, String.toList_ofList, Run.toMatch, Run.followedBy, hcaptures]
    rcases hword with ⟨w, hw, hr⟩ | ⟨hnone, hr⟩
    · exact .inl ⟨w, hw, by simp [hr]⟩
    · exact .inr ⟨hnone, by simp [hr]⟩

/-- **The limit of a match.** A match of a rule stands where its cue has a number, and it gives the number that
is written there, if this is a limit and no span of time. -/
theorem exists_countedText_of_mem_limitRules (rule : Rule Unit Nat) (hrule : rule ∈ limitRules.rules)
    (text : String) (m : Match) (hm : m ∈ rule.pattern.matchesIn text) :
    rule.name ∈ limitCues
      ∧ ∃ place : CountedText rule.name, place.text = text ∧ m.offset = place.before.utf8ByteSize
        ∧ m.captures.head? = some place.number
        ∧ ∀ n, rule.action () m.captures = some n
            ↔ (rule.name ∈ spanCues → ¬ FollowedByUnit place.after)
              ∧ Text.Writes place.number.toList n ∧ 1 ≤ n ∧ n < 2 ^ 64 := by
  rw [limitRules_eq] at hrule
  obtain ⟨cue, hcue, hrule⟩ := List.mem_map.mp hrule
  simp only [← count?_eq_some_iff]
  by_cases hspan : cue ∈ spanCues
  · rw [if_pos hspan] at hrule
    subst hrule
    obtain ⟨place, hplace, hoffset, hcaptures⟩ := exists_countedText_spanRule cue hcue text m hm
    refine ⟨hcue, place, hplace, hoffset, ?_, fun n => ?_⟩
    · rcases hcaptures with ⟨w, -, hcaptures⟩ | ⟨-, hcaptures⟩ <;> rw [hcaptures] <;> rfl
    · have hname : (spanRule cue).name ∈ spanCues := hspan
      simp only [hname, true_imp_iff]
      exact countWithoutUnit_eq_some_iff place.number place.after m.captures hcaptures n
  · rw [if_neg hspan] at hrule
    subst hrule
    obtain ⟨place, hplace, hoffset, hcaptures⟩ := exists_countedText_limitRule cue hcue text m hm
    refine ⟨hcue, place, hplace, hoffset, by rw [hcaptures]; rfl, fun n => ?_⟩
    rw [hcaptures]
    exact (and_iff_right fun hname => absurd hname hspan).symm

/-- The units of time are words. -/
theorem timeUnits_isRun : ∀ unit ∈ timeUnits, IsRun .word unit.toList := by
  decide +kernel

/-- A unit of time that is the first word behind a number, between white space, is the next word there. -/
theorem followedByUnit_of_mem_wordsOf (after : String) (hend : ∀ c ∈ after.toList.head?, isWordChar c = false)
    (unit : String) (hunit : unit ∈ timeUnits) (h : unit ∈ (Text.wordsOf after).head?) :
    FollowedByUnit after := by
  rw [Text.wordsOf, List.head?_map, Option.mem_def, Option.map_eq_some_iff] at h
  obtain ⟨first, hfirst, rfl⟩ := h
  obtain ⟨ws, hwords⟩ := List.head?_eq_some_iff.mp hfirst
  obtain ⟨white, rest, hafter, hwhite, hrest⟩ := Text.exists_of_words_eq_cons _ first ws hwords
  have hrun := timeUnits_isRun _ hunit
  rw [String.toList_ofList] at hrun
  -- the number has ended, so the unit does not stand right behind it
  have hne : white ≠ [] := by
    rintro rfl
    obtain ⟨c, hc, hword⟩ := exists_head?_append rest (ends_of_isRun .word first hrun).1
    have hnone := hend c (by rw [hafter]; exact hc)
    rw [CharClass.contains, hnone] at hword
    cases hword
  refine ⟨_, hunit, white, rest, ?_, ⟨hne, hwhite⟩, ?_, fun c hc => ?_⟩
  · rwa [String.toList_ofList]
  · rwa [String.toList_ofList]
  · refine Bool.eq_false_iff.mpr fun hword => ?_
    have hnone := Text.isWhite_of_isWordChar c hword
    rw [hrest c hc] at hnone
    cases hnone

/-! ## The limit of a question -/

/-- **A row limit is sound.** The limit of a question is a number from 1 to `2 ^ 64 - 1` that its text writes in
ASCII digits, as a whole word behind one of the cues and white space, and for `first` and `last` no unit of time
is the next word, be it one of word characters or one between white space. A match of a rule stands where its
cue has such a word of digits, and gives no other number; so it gives none if the word writes a number that is
too large, or has digits of another script. -/
theorem limitOf_sound (s : Selection) :
    (∀ n, limitOf s = some n →
        1 ≤ n ∧ n < 2 ^ 64
          ∧ ∃ cue ∈ limitCues, ∃ place : CountedText cue, place.text = s.text
            ∧ Text.Writes place.number.toList n
            ∧ (cue ∈ spanCues → ¬ FollowedByUnit place.after
                ∧ ∀ word ∈ (Text.wordsOf place.after).head?, word ∉ timeUnits))
      ∧ ∀ rule ∈ limitRules.rules, ∀ m ∈ rule.pattern.matchesIn s.text,
          ∃ place : CountedText rule.name, place.text = s.text ∧ m.offset = place.before.utf8ByteSize
            ∧ m.captures.head? = some place.number
            ∧ (∀ n, rule.action () m.captures = some n
                ↔ (rule.name ∈ spanCues → ¬ FollowedByUnit place.after)
                  ∧ Text.Writes place.number.toList n ∧ 1 ≤ n ∧ n < 2 ^ 64)
            ∧ (∀ n, Text.Writes place.number.toList n → 2 ^ 64 ≤ n → rule.action () m.captures = none)
            ∧ (∀ c ∈ place.number.toList, c.isDigit = false → rule.action () m.captures = none) := by
  constructor
  · intro n hn
    obtain ⟨rule, hrule, m, hm, haction⟩ := limitRules.exists_match_of_first? () s.text n hn
    obtain ⟨hcue, place, hplace, -, -, hvalue⟩ :=
      exists_countedText_of_mem_limitRules rule hrule s.text m hm
    obtain ⟨hspan, hwrites, hpos, hlt⟩ := (hvalue n).mp haction
    refine ⟨hpos, hlt, rule.name, hcue, place, hplace, hwrites, fun hname => ⟨hspan hname, ?_⟩⟩
    intro word hword hunit
    exact hspan hname (followedByUnit_of_mem_wordsOf place.after place.ends word hunit hword)
  · intro rule hrule m hm
    obtain ⟨-, place, hplace, hoffset, hnumber, hvalue⟩ :=
      exists_countedText_of_mem_limitRules rule hrule s.text m hm
    refine ⟨place, hplace, hoffset, hnumber, hvalue, fun n hwrites hle => ?_, fun c hc hdigit => ?_⟩
    · refine Option.eq_none_iff_forall_ne_some.mpr fun k hk => ?_
      obtain ⟨-, hwrites', -, hlt⟩ := (hvalue k).mp hk
      obtain rfl := hwrites.unique hwrites'
      exact Nat.not_lt_of_le hle hlt
    · refine Option.eq_none_iff_forall_ne_some.mpr fun k hk => ?_
      obtain ⟨-, hwrites, -⟩ := (hvalue k).mp hk
      exact Bool.eq_false_iff.mp hdigit (hwrites.isDigit.2 c hc)

/-- A schema with a table of orders. -/
def orderedSchema : Schema where
  tables := [⟨"orders", ["order_id", "amount"]⟩]
  tableAliases := []
  columnAliases := []
  relationships := []
  metrics := []
  timePhrases := []

/-- The limit stands behind a cue with a long s, with leading zeros; the span of time, the number that is too
large and the digit of another script are none. -/
theorem limitOf_sound_orderedSchema :
    let s : Selection := ⟨orderedSchema, ["orders"],
      "the firſt 007 orders of the last 70 days, not the top 18446744073709551617 nor the best ٣"⟩
    limitOf s = some 7
      ∧ (∃ cue ∈ limitCues, ∃ place : CountedText cue, place.text = s.text
          ∧ Text.Writes place.number.toList 7 ∧ (cue ∈ spanCues → ¬ FollowedByUnit place.after))
      ∧ (∃ m ∈ (spanRule "last").pattern.matchesIn s.text, ∃ place : CountedText "last",
          place.text = s.text ∧ place.number = "70" ∧ FollowedByUnit place.after)
      ∧ (∃ m ∈ (limitRule "top").pattern.matchesIn s.text, (limitRule "top").action () m.captures = none)
      ∧ ∃ m ∈ (limitRule "best").pattern.matchesIn s.text, (limitRule "best").action () m.captures = none := by
  intro s
  have hlimit : limitOf s = some 7 := by decide +kernel
  have hlast : ["70", "days"] ∈ ((spanRule "last").pattern.matchesIn s.text).map Match.captures := by
    decide +kernel
  have htop : ["18446744073709551617"] ∈ ((limitRule "top").pattern.matchesIn s.text).map Match.captures := by
    decide +kernel
  have hbest : ["٣"] ∈ ((limitRule "best").pattern.matchesIn s.text).map Match.captures := by decide +kernel
  obtain ⟨hsound, hmatches⟩ := limitOf_sound s
  obtain ⟨-, -, cue, hcue, place, hplace, hwrites, hspan⟩ := hsound 7 hlimit
  refine ⟨hlimit, ⟨cue, hcue, place, hplace, hwrites, fun h => (hspan h).1⟩, ?_, ?_, ?_⟩
  -- if no unit of time came behind it, the number would be a limit
  · obtain ⟨m, hm, hcaptures⟩ := List.mem_map.mp hlast
    obtain ⟨place, hplace, -, hnumber, hvalue, -⟩ := hmatches (spanRule "last") (by simp [limitRules]) m hm
    rw [hcaptures] at hnumber hvalue
    have hseventy : place.number = "70" := (Option.some.inj hnumber).symm
    refine ⟨m, hm, place, hplace, hseventy, by_contra fun hunit => ?_⟩
    have hvalue := (hvalue 70).mpr ⟨fun _ => hunit, ⟨0, by rw [hseventy]; rfl⟩, by decide, by decide⟩
    have hnone : (spanRule "last").action () ["70", "days"] = none := rfl
    rw [hnone] at hvalue
    cases hvalue
  · obtain ⟨m, hm, hcaptures⟩ := List.mem_map.mp htop
    obtain ⟨place, -, -, hnumber, -, hlarge, -⟩ := hmatches (limitRule "top") (by simp [limitRules]) m hm
    rw [hcaptures] at hnumber
    have hlargest : place.number = "18446744073709551617" := (Option.some.inj hnumber).symm
    exact ⟨m, hm, hlarge (2 ^ 64 + 1) ⟨0, by rw [hlargest]; decide +kernel⟩ (by decide)⟩
  · obtain ⟨m, hm, hcaptures⟩ := List.mem_map.mp hbest
    obtain ⟨place, -, -, hnumber, -, -, hscript⟩ := hmatches (limitRule "best") (by simp [limitRules]) m hm
    rw [hcaptures] at hnumber
    have harabic : place.number = "٣" := (Option.some.inj hnumber).symm
    exact ⟨m, hm, hscript '٣' (by rw [harabic]; decide) (by decide)⟩

end Intent

end TextToSql
