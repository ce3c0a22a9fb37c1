import TextToSql.Proofs.Intent.Supply
import TextToSql.Proofs.Pattern.Spaced

/-!
# What the rules capture in a text of thresholds

A threshold is a term, a phrase of comparison and a number. The rules for the phrases of comparison go over a
text of thresholds one by one, each with a search of its own. A rule for thresholds takes its own phrase only,
and the number behind it to its end. The rules of all other kinds find at most an `and` where they look for a
term.

* `toList_textOf` : the words of a text of thresholds;
* `captured_limit` : what a rule for thresholds captures;
* `exists_and_of_captured` : what the other rules capture.
-/

namespace TextToSql.Intent

open Sql Pattern Lexicon Unicode Text

/-- The phrases that compare a column with a number, with the comparisons that they express. -/
def thresholdPhrases : List (String × Comparison) := [
  ("greater than", .greater), ("more than", .greater), ("above", .greater), (">", .greater),
  ("less than", .less), ("below", .less), ("<", .less),
  ("at least", .atLeast), (">=", .atLeast), ("at most", .atMost), ("<=", .atMost)]

/-- A threshold in a question: a term, a phrase of comparison and a number. -/
structure Threshold where
  term : String
  phrase : String
  number : String

namespace Threshold

/-- The text of a threshold. -/
def text (t : Threshold) : String := t.term ++ " " ++ t.phrase ++ " " ++ t.number

/-- The text of several thresholds. -/
def textOf (ts : List Threshold) : String := " and ".intercalate (ts.map text)

/-- A threshold is well formed if its term is a word, its phrase is known and its number is an ASCII
numeral. -/
structure WellFormed (t : Threshold) : Prop where
  term : IsRun .word t.term.toList
  phrase : ∃ op, (t.phrase, op) ∈ thresholdPhrases
  number : IsDecimal Char.isDigit t.number.toList

/-- What a threshold says in a question: it compares the column that its term names. -/
inductive Says (s : Selection) (t : Threshold) : Condition → Prop
  | compare (ref : ColumnRef) (op : Comparison) (href : selectedColumn? s t.term = some ref)
      (hop : (t.phrase, op) ∈ thresholdPhrases) :
      Says s t (.compare (.column ref) op (.number t.number))

/-! ## The words of thresholds -/

/-- The words of the phrases. -/
def phraseWords : List (List (List Char)) := thresholdPhrases.map fun entry => words entry.1.toList

/-- What follows the term of a threshold: its phrase and its number. -/
def tail (t : Threshold) : List (List Char) := words t.phrase.toList ++ [t.number.toList]

/-- What follows a threshold: the further ones, each behind an `and`. -/
def more (ts : List Threshold) : List (List Char) :=
  ts.flatMap fun t => "and".toList :: t.term.toList :: t.tail

/-- The words of a threshold and of those that follow it. -/
def wordsOf (t : Threshold) (ts : List Threshold) : List (List Char) :=
  t.term.toList :: (t.tail ++ more ts)

/-- A word that can stand behind the term of a threshold: a word of a phrase or a number. -/
def Inert (w : List Char) : Prop := (∃ vs ∈ phraseWords, w ∈ vs) ∨ ∃ c ∈ w.head?, c.isDigit

/-- A word of a pattern that is equal to no such word up to case. -/
def Foreign (u : List Char) : Prop :=
  (∀ vs ∈ phraseWords, ∀ v ∈ vs, ¬ Folds u v) ∧ u.head?.any Char.isDigit = false

instance (u : List Char) : Decidable (Foreign u) :=
  inferInstanceAs (Decidable (_ ∧ _))

variable {t : Threshold} {ts : List Threshold}

@[simp]
theorem more_nil : more [] = [] := rfl

@[simp]
theorem more_cons (t : Threshold) (ts : List Threshold) :
    more (t :: ts) = "and".toList :: wordsOf t ts := by
  simp [more, wordsOf]

/-- A phrase is followed by a number. -/
theorem tail_append (t : Threshold) (rest : List (List Char)) :
    t.tail ++ rest = words t.phrase.toList ++ t.number.toList :: rest := by
  rw [tail, List.append_assoc, List.singleton_append]

/-- A term is followed by something. -/
theorem tail_ne_nil (t : Threshold) : t.tail ≠ [] := by simp [tail]

/-- No inert word is equal to a foreign one up to case. -/
theorem Foreign.not_folds {u w : List Char} (hu : Foreign u) (hw : Inert w) : ¬ Folds u w := by
  intro h
  obtain ⟨hphrases, hdigit⟩ := hu
  rcases hw with ⟨vs, hvs, hw⟩ | ⟨c, hc, hcdigit⟩
  · exact hphrases vs hvs w hw h
  · have hc : u.head? = some c := head?_of_folds u w h c hc hcdigit
    rw [hc, Option.any_some, hcdigit] at hdigit
    cases hdigit

/-- The words of a phrase are among those of the phrases, and the phrase is the text of them. -/
theorem words_phrase {phrase : String} {op : Comparison} (h : (phrase, op) ∈ thresholdPhrases) :
    words phrase.toList ∈ phraseWords ∧ phrase.toList = spaced (words phrase.toList)
      ∧ words phrase.toList ≠ [] := by
  have hall : ∀ entry ∈ thresholdPhrases, entry.1.toList = spaced (words entry.1.toList)
      ∧ words entry.1.toList ≠ [] := by decide +kernel
  exact ⟨List.mem_map.mpr ⟨_, h, rfl⟩, hall _ h⟩

namespace WellFormed

/-- What `words_phrase` says about the phrase of a threshold. -/
theorem words_phrase (h : t.WellFormed) :
    words t.phrase.toList ∈ phraseWords ∧ t.phrase.toList = spaced (words t.phrase.toList)
      ∧ words t.phrase.toList ≠ [] := by
  obtain ⟨op, hop⟩ := h.phrase
  exact Threshold.words_phrase hop

/-- The number of a threshold starts with a digit. -/
theorem head?_number (h : t.WellFormed) : ∃ c ∈ t.number.toList.head?, c.isDigit := by
  obtain ⟨whole, ⟨hne, hdigits⟩, hnumber⟩ := h.number
  obtain ⟨c, whole, rfl⟩ := List.exists_cons_of_ne_nil hne
  have hc : c.isDigit := hdigits c List.mem_cons_self
  rcases hnumber with heq | ⟨fraction, -, heq⟩
  · exact ⟨c, by rw [heq]; rfl, hc⟩
  · exact ⟨c, by rw [heq]; rfl, hc⟩

/-- What follows a term is inert. -/
theorem inert_of_mem_tail (h : t.WellFormed) : ∀ w ∈ t.tail, Inert w := by
  intro w hw
  rcases List.mem_append.mp hw with hw | hw
  · exact Or.inl ⟨_, h.words_phrase.1, hw⟩
  · obtain rfl := List.mem_singleton.mp hw
    exact Or.inr h.head?_number

/-- A threshold is made of words. -/
theorem areWords (h : t.WellFormed) : AreWords (t.term.toList :: t.tail) := by
  have hnumber : IsRun .dotted t.number.toList :=
    isRun_dotted_of_isDecimal (h.number.mono isDecimalDigit_of_isDigit)
  refine List.forall_mem_cons.mpr ⟨⟨h.term.1, fun c hc => isWhite_of_isWordChar c (h.term.2 c hc)⟩, ?_⟩
  refine List.forall_mem_append.mpr ⟨areWords_words _, List.forall_mem_singleton.mpr ⟨hnumber.1, ?_⟩⟩
  intro c hc
  have hdotted : isWordChar c ∨ c = '.' ∨ c = '-' := by
    simpa [CharClass.contains, or_assoc] using hnumber.2 c hc
  rcases hdotted with hword | rfl | rfl
  · exact isWhite_of_isWordChar c hword
  · decide
  · decide

end WellFormed

/-- Thresholds are made of words. -/
theorem areWords_wordsOf (t : Threshold) (ts : List Threshold) (h : ∀ t' ∈ t :: ts, t'.WellFormed) :
    AreWords (wordsOf t ts) := by
  induction ts generalizing t with
  | nil =>
      simpa [wordsOf] using (h t List.mem_cons_self).areWords
  | cons t' ts ih =>
      obtain ⟨ht, hts⟩ := List.forall_mem_cons.mp h
      rw [wordsOf, more_cons, ← List.cons_append]
      refine List.forall_mem_append.mpr ⟨ht.areWords, List.forall_mem_cons.mpr ⟨?_, ih t' hts⟩⟩
      exact ⟨by decide, IsPlain.whiteFree (by decide)⟩

/-- The text of a threshold is the text of its words. -/
theorem WellFormed.toList_text (h : t.WellFormed) : t.text.toList = spaced (t.term.toList :: t.tail) := by
  obtain ⟨-, hphrase, hne⟩ := h.words_phrase
  have hspace : " ".toList = [' '] := rfl
  have htail : spaced t.tail = t.phrase.toList ++ ' ' :: t.number.toList := by
    rw [tail, spaced_append _ _ hne (List.cons_ne_nil _ _), ← hphrase, spaced_cons, following_nil,
      List.append_nil]
  rw [spaced_cons, following_of_ne_nil _ t.tail_ne_nil, htail]
  simp [text, hspace]

/-- **The text of thresholds** is the text of their words. -/
theorem toList_textOf (t : Threshold) (ts : List Threshold) (h : ∀ t' ∈ t :: ts, t'.WellFormed) :
    (textOf (t :: ts)).toList = spaced (wordsOf t ts) := by
  induction ts generalizing t with
  | nil =>
      have ht := h t List.mem_cons_self
      simpa [textOf, wordsOf] using ht.toList_text
  | cons t' ts ih =>
      obtain ⟨ht, hts⟩ := List.forall_mem_cons.mp h
      have hand : " and ".toList = ' ' :: ("and".toList ++ [' ']) := rfl
      have hrest : (textOf (t' :: ts)).toList = spaced (wordsOf t' ts) := ih t' hts
      have hcons : (textOf (t :: t' :: ts)).toList
          = t.text.toList ++ " and ".toList ++ (textOf (t' :: ts)).toList := by
        simp [textOf, String.toList_intercalate]
      have hwords : wordsOf t (t' :: ts)
          = (t.term.toList :: t.tail) ++ (["and".toList] ++ wordsOf t' ts) := by simp [wordsOf]
      rw [hcons, hrest, ht.toList_text, hwords, spaced_append _ _ (List.cons_ne_nil _ _) (by simp),
        spaced_append ["and".toList] (wordsOf t' ts) (List.cons_ne_nil _ _) (by simp [wordsOf]), hand]
      simp

/-! ## The rules for thresholds -/

/-- What a rule for thresholds looks for behind a term. -/
def limit (phrase : String) : Pattern :=
  optionalWord (lit "is") ++ (lit phrase ++ (spaces ++ capture numeral))

/-- A rule for thresholds looks for a term and what belongs behind it. -/
theorem captured_numberRule (name phrase : String) (op : Comparison) (s : List Char) :
    (numberRule name phrase op).pattern.captured s = (Pattern.term .word (limit phrase)).captured s := by
  refine captured_congr (fun before s => ?_) s
  show (capture word ++ spaces ++ optionalWord (lit "is") ++ lit phrase ++ spaces ++ capture numeral).runs
    before s = _
  simp only [runs_append_assoc]
  rfl

variable {phrase : String} {op : Comparison} {before : Option Char} {ws : List (List Char)}

/-- An `is` in a pattern, and what follows it, matches at an `is` only, up to case. -/
theorem folds_of_mem_runs_is (q : Pattern) (hws : AreWords ws) (r : Run)
    (h : r ∈ (lit "is" ++ (spaces ++ q)).runs before (spaced ws)) : ∃ w ∈ ws.head?, Folds "is".toList w := by
  have his : AreWords ["is".toList] :=
    List.forall_mem_singleton.mpr ⟨by decide, IsPlain.whiteFree (by decide)⟩
  obtain ⟨ws₁, ws₂, rfl, hfolds, -⟩ :=
    mem_runs_phrase "is" ["is".toList] (by simp) his (List.cons_ne_nil _ _) hws r h
  cases hfolds with
  | cons hfold _ => exact ⟨_, rfl, hfold⟩

/-- A rule for thresholds matches behind a term only at an `is`, or where the words of its phrase stand and a
number behind them. -/
theorem words_of_mem_runs_limit (hphrase : (phrase, op) ∈ thresholdPhrases) (hws : AreWords ws) (r : Run)
    (h : r ∈ (limit phrase).runs before (spaced ws)) :
    (∃ w ∈ ws.head?, Folds "is".toList w)
      ∨ ∃ ws₁ w ws₂, ws = ws₁ ++ w :: ws₂ ∧ List.Forall₂ Folds (words phrase.toList) ws₁
        ∧ ∃ c ∈ w.head?, isDecimalDigit c := by
  rw [limit, optionalWord, runs_optional_append, List.mem_append, runs_append_assoc] at h
  rcases h with h | h
  · exact Or.inl (folds_of_mem_runs_is _ hws r h)
  · obtain ⟨-, htext, hne⟩ := words_phrase hphrase
    obtain ⟨ws₁, ws₂, rfl, hfolds, hne₂, r', hr', -⟩ :=
      mem_runs_phrase phrase _ htext (areWords_words _) hne hws r h
    obtain ⟨w, ws₂, rfl⟩ := List.exists_cons_of_ne_nil hne₂
    obtain ⟨c, hc, hdigit⟩ : ∃ c ∈ (spaced (w :: ws₂)).head?, CharClass.digit.contains c :=
      exists_head_of_mem_runs rfl _ _ r' hr'
    have hw : w ≠ [] := (hws w (by simp)).1
    rw [spaced_cons, List.head?_append_of_ne_nil _ hw] at hc
    exact Or.inr ⟨ws₁, w, ws₂, rfl, hfolds, c, hc, hdigit⟩

/-- Words up to a number are the words of a phrase up to case, if a number stands behind these. -/
theorem eq_of_append_number {us xs ws₁ ws₂ more : List (List Char)} {n w : List Char}
    (h : xs ++ n :: more = ws₁ ++ w :: ws₂) (hn : ∃ c ∈ n.head?, c.isDigit)
    (hw : ∃ c ∈ w.head?, isDecimalDigit c) (hxs : ∀ x ∈ xs, ∀ c ∈ x.head?, isDecimalDigit c = false)
    (hus : ∀ u ∈ us, ∀ c ∈ u.head?, isDecimalDigit c = false) (hfolds : List.Forall₂ Folds us ws₁) :
    ws₁ = xs := by
  rcases List.append_eq_append_iff.mp h with ⟨extra, rfl, hextra⟩ | ⟨extra, rfl, hextra⟩
  · cases extra with
    | nil => exact List.append_nil xs
    | cons n' extra =>
        -- the number would have to be a word of the phrase
        obtain ⟨rfl, -⟩ := List.cons.inj hextra
        obtain ⟨c, hc, hdigit⟩ := hn
        obtain ⟨u, hu, hfold⟩ : ∃ u ∈ us, Folds u n := by
          have hdrop := List.forall₂_drop_append us xs _ hfolds
          generalize hrest : us.drop xs.length = rest at hdrop
          cases hdrop with
          | cons hfold _ => exact ⟨_, List.mem_of_mem_drop (by rw [hrest]; exact List.mem_cons_self), hfold⟩
        have hnone := hus u hu c (head?_of_folds u n hfold c hc hdigit)
        rw [isDecimalDigit_of_isDigit c hdigit] at hnone
        cases hnone
  · cases extra with
    | nil => exact (List.append_nil ws₁).symm
    | cons w' extra =>
        -- a word before the number would have to start with a digit
        obtain ⟨rfl, -⟩ := List.cons.inj hextra
        obtain ⟨c, hc, hdigit⟩ := hw
        have hnone := hxs w (by simp) c hc
        rw [hdigit] at hnone
        cases hnone

/-- No word of a phrase starts with a digit. -/
theorem head?_of_mem_phraseWords (vs : List (List Char)) (hvs : vs ∈ phraseWords) (v : List Char)
    (hv : v ∈ vs) : ∀ c ∈ v.head?, isDecimalDigit c = false := by
  have hall : ∀ vs ∈ phraseWords, ∀ v ∈ vs, v.head?.any isDecimalDigit = false := by decide +kernel
  intro c hc
  have hnone := hall vs hvs v hv
  rwa [Option.mem_def.mp hc, Option.any_some] at hnone

/-- The words of a phrase are those of another one, or of the end of one, only if the phrases are the same. -/
theorem eq_of_folds_suffix : ∀ us ∈ phraseWords, ∀ vs ∈ phraseWords, ∀ xs ∈ vs.tails,
    List.Forall₂ Folds us xs → us = vs := by decide +kernel

/-- Behind its first word, no phrase has all the words of another one. -/
theorem not_folds_tail : ∀ us ∈ phraseWords, ∀ vs ∈ phraseWords, ¬ List.Forall₂ Folds us.tail vs := by
  decide +kernel

/-- No word of a phrase is an `and` up to case. -/
theorem not_folds_and : ∀ us ∈ phraseWords, ∀ u ∈ us, ¬ Folds u "and".toList := by decide +kernel

/-- An `is` in a pattern is foreign to phrases and numbers. -/
theorem foreign_is : Foreign "is".toList := by decide +kernel

variable (hphrase : (phrase, op) ∈ thresholdPhrases)

include hphrase

/-- In the phrase of a threshold, a rule matches only at the beginning and only if the phrase is its own. -/
theorem eq_of_mem_runs_limit_tail (ht : t.WellFormed) (xs : List (List Char))
    (hxs : xs <:+ words t.phrase.toList) (rest : List (List Char))
    (hws : AreWords (xs ++ t.number.toList :: rest)) (r : Run)
    (h : r ∈ (limit phrase).runs before (spaced (xs ++ t.number.toList :: rest))) : phrase = t.phrase := by
  obtain ⟨hmem, htext, hne⟩ := words_phrase hphrase
  obtain ⟨hmem', htext', -⟩ := ht.words_phrase
  have hxsmem : ∀ x ∈ xs, x ∈ words t.phrase.toList := fun x hx => hxs.subset hx
  rcases words_of_mem_runs_limit hphrase hws r h with ⟨w, hw, his⟩ | ⟨ws₁, w, ws₂, hsplit, hfolds, hdigit⟩
  · have hinert : Inert w := by
      cases xs with
      | nil =>
          obtain rfl : t.number.toList = w := by simpa using hw
          exact Or.inr ht.head?_number
      | cons x xs =>
          obtain rfl : x = w := by simpa using hw
          exact Or.inl ⟨_, hmem', hxsmem x List.mem_cons_self⟩
    exact absurd his (foreign_is.not_folds hinert)
  · obtain rfl := eq_of_append_number hsplit ht.head?_number hdigit
      (fun x hx => head?_of_mem_phraseWords _ hmem' x (hxsmem x hx)) (head?_of_mem_phraseWords _ hmem) hfolds
    have heq := eq_of_folds_suffix _ hmem _ hmem' _ ((List.mem_tails _ _).mpr hxs) hfolds
    rw [← String.toList_inj, htext, heq, ← htext']

/-- A rule for thresholds does not match at an `and`. -/
theorem runs_limit_and (rest : List (List Char)) (hws : AreWords ("and".toList :: rest)) :
    (limit phrase).runs before (spaced ("and".toList :: rest)) = [] := by
  obtain ⟨hmem, -, hne⟩ := words_phrase hphrase
  refine List.eq_nil_iff_forall_not_mem.mpr fun r h => ?_
  rcases words_of_mem_runs_limit hphrase hws r h with ⟨w, hw, his⟩ | ⟨ws₁, w, ws₂, hsplit, hfolds, hdigit⟩
  · obtain rfl : "and".toList = w := by simpa using hw
    exact absurd his (by decide +kernel)
  · obtain ⟨u, us, hus⟩ := List.exists_cons_of_ne_nil hne
    rw [hus] at hfolds
    cases hfolds with
    | cons hfold _ =>
        obtain ⟨rfl, -⟩ := List.cons.inj hsplit
        exact not_folds_and _ hmem u (by rw [hus]; exact List.mem_cons_self) hfold

/-- A rule for thresholds does not match at a term that is not an `is` up to case. -/
theorem runs_limit_wordsOf (ht : t.WellFormed) (his : ¬ Folds "is".toList t.term.toList)
    (hws : AreWords (wordsOf t ts)) : (limit phrase).runs before (spaced (wordsOf t ts)) = [] := by
  obtain ⟨hmem, -, hne⟩ := words_phrase hphrase
  obtain ⟨hmem', -, -⟩ := ht.words_phrase
  refine List.eq_nil_iff_forall_not_mem.mpr fun r h => ?_
  rcases words_of_mem_runs_limit hphrase hws r h with ⟨w, hw, his'⟩ | ⟨ws₁, w, ws₂, hsplit, hfolds, hdigit⟩
  · obtain rfl : t.term.toList = w := by simpa [wordsOf] using hw
    exact his his'
  -- the words behind the first one of the phrase would have to be those of the threshold
  · obtain ⟨u, us, hus⟩ := List.exists_cons_of_ne_nil hne
    rw [hus] at hfolds
    cases hfolds with
    | @cons _ _ _ ws₁ _ hfolds =>
        obtain ⟨-, hsplit⟩ := List.cons.inj hsplit
        rw [tail_append] at hsplit
        have husdigit : ∀ v ∈ us, ∀ c ∈ v.head?, isDecimalDigit c = false := fun v hv =>
          head?_of_mem_phraseWords _ hmem v (by rw [hus]; exact List.mem_cons_of_mem u hv)
        obtain rfl := eq_of_append_number hsplit ht.head?_number hdigit
          (head?_of_mem_phraseWords _ hmem') husdigit hfolds
        refine not_folds_tail _ hmem _ hmem' ?_
        rwa [hus]

omit hphrase in
/-- At its own phrase a rule for thresholds matches, and it takes the number to its end. -/
theorem runs_limit_own (ht : t.WellFormed) (hown : t.phrase = phrase)
    (hws : AreWords (t.tail ++ more ts)) :
    ∃ taken rs, (limit phrase).runs before (spaced (t.tail ++ more ts))
      = ⟨taken, following (more ts), [t.number.toList]⟩ :: rs := by
  obtain ⟨hmem, htext, hne⟩ := ht.words_phrase
  have his : ((lit "is" ++ spaces) ++ (lit phrase ++ (spaces ++ capture numeral))).runs before
      (spaced (t.tail ++ more ts)) = [] := by
    refine List.eq_nil_iff_forall_not_mem.mpr fun r h => ?_
    rw [runs_append_assoc] at h
    obtain ⟨w, hw, his⟩ := folds_of_mem_runs_is _ hws r h
    have hwtail : w ∈ t.tail := by
      rw [List.head?_append_of_ne_nil _ t.tail_ne_nil] at hw
      exact List.mem_of_mem_head? hw
    exact foreign_is.not_folds (ht.inert_of_mem_tail w hwtail) his
  have hnumber : AreWords (t.number.toList :: more ts) := by
    refine fun w hw => hws w ?_
    rw [tail_append]
    exact List.mem_append_right _ hw
  have hsplit : spaced (t.tail ++ more ts)
      = phrase.toList ++ ' ' :: (t.number.toList ++ following (more ts)) := by
    rw [tail_append, spaced_append _ _ hne (List.cons_ne_nil _ _), ← htext, hown, spaced_cons]
  have hend : ∀ c ∈ (following (more ts)).head?, c = ' ' := by
    cases more ts <;> simp
  obtain ⟨rs, hnumeral⟩ := runs_capture_numeral (some ' ') t.number.toList (following (more ts))
    (ht.number.mono isDecimalDigit_of_isDigit)
    (fun c hc => by rw [hend c hc]; decide) (fun c hc => by rw [hend c hc]; decide)
  have hhead := hnumber.head?_spaced
  rw [spaced_cons] at hhead
  rw [limit, optionalWord, runs_optional_append, his, List.nil_append, hsplit,
    runs_phrase phrase _ hhead, hnumeral, List.map_cons]
  exact ⟨_, _, rfl⟩

/-- A rule for thresholds captures a threshold with its phrase and passes over one with another phrase. -/
theorem captured_limit_wordsOf (h : ∀ t' ∈ t :: ts, t'.WellFormed) :
    (Pattern.term .word (limit phrase)).captured (spaced (wordsOf t ts))
      = (if t.phrase = phrase then [[t.term, t.number]] else [])
        ++ (Pattern.term .word (limit phrase)).captured (spaced (more ts)) := by
  have hcls : CharClass.word.contains ' ' = false := by decide +kernel
  have ht := h t List.mem_cons_self
  have hwords := areWords_wordsOf t ts h
  have hws : AreWords (t.tail ++ more ts) := fun w hw => hwords w (List.mem_cons_of_mem _ hw)
  by_cases hown : t.phrase = phrase
  · obtain ⟨taken, rs, hruns⟩ := runs_limit_own ht hown hws
    have hne : t.tail ++ more ts ≠ [] := List.append_ne_nil_of_left_ne_nil t.tail_ne_nil _
    rw [if_pos hown, wordsOf, captured_of_taken hcls _ ht.term hws hne _ rs hruns,
      captured_following hcls]
    simp
  · rw [if_neg hown, List.nil_append, wordsOf]
    refine captured_of_allSkipped hcls _ t.tail (more ts) hwords fun xs hxs hne => ?_
    have hrest : AreWords (xs ++ more ts) := by
      refine fun w hw => hws w ?_
      rcases List.mem_append.mp hw with hw | hw
      · exact List.mem_append_left _ (hxs.subset hw)
      · exact List.mem_append_right _ hw
    rcases List.suffix_concat_iff.mp hxs with rfl | ⟨xs, rfl, hphrasews⟩
    · cases ts with
      | nil => exact absurd rfl hne
      | cons t' ts =>
          rw [List.nil_append, more_cons] at hrest ⊢
          exact runs_limit_and hphrase _ hrest
    · rw [List.append_assoc, List.singleton_append] at hrest ⊢
      refine List.eq_nil_iff_forall_not_mem.mpr fun r hr => hown ?_
      exact (eq_of_mem_runs_limit_tail hphrase ht xs hphrasews _ hrest r hr).symm

/-- **What a rule for thresholds captures** in a text of thresholds: the terms and the numbers of those with
its phrase. Behind an `and` no term may be an `is`: it would be taken for the one that the rule looks for. -/
theorem captured_limit (t : Threshold) (ts : List Threshold) (h : ∀ t' ∈ t :: ts, t'.WellFormed)
    (his : ∀ t' ∈ ts, ¬ Folds "is".toList t'.term.toList) :
    (Pattern.term .word (limit phrase)).captured (spaced (wordsOf t ts))
      = ((t :: ts).filter (·.phrase = phrase)).map fun t => [t.term, t.number] := by
  have hcls : CharClass.word.contains ' ' = false := by decide +kernel
  induction ts generalizing t with
  | nil =>
      rw [captured_limit_wordsOf hphrase h]
      have hnil : (Pattern.term .word (limit phrase)).captured [] = [] :=
        captured_nil (leadingClass?_term .word _)
      by_cases hown : t.phrase = phrase <;> simp [hown, hnil]
  | cons t' ts ih =>
      obtain ⟨ht, hts⟩ := List.forall_mem_cons.mp h
      obtain ⟨his', hists⟩ := List.forall_mem_cons.mp his
      have hwords := areWords_wordsOf t' ts hts
      have hskip : (Pattern.term .word (limit phrase)).captured (spaced ("and".toList :: wordsOf t' ts))
          = (Pattern.term .word (limit phrase)).captured (spaced (wordsOf t' ts)) :=
        captured_of_skipped hcls _ (IsPlain.whiteFree (by decide)) hwords fun _ =>
          runs_limit_wordsOf hphrase (hts t' List.mem_cons_self) his' hwords
      rw [captured_limit_wordsOf hphrase h, more_cons, hskip, ih t' hts hists]
      generalize t' :: ts = rest
      rw [List.filter_cons]
      by_cases hown : t.phrase = phrase <;> simp [hown]

/-! ## The other rules -/

omit hphrase

/-- A word of a text that starts with a threshold is a word of the threshold, with inert words of it behind,
or it comes later. -/
theorem WellFormed.cases_of_append (ht : t.WellFormed) (rest pre : List (List Char)) (w : List Char)
    (post : List (List Char)) (h : t.term.toList :: t.tail ++ rest = pre ++ w :: post) :
    (∃ us, (∀ u ∈ us, Inert u) ∧ post = us ++ rest) ∨ ∃ extra, rest = extra ++ w :: post := by
  rcases List.append_eq_append_iff.mp h with ⟨extra, -, hrest⟩ | ⟨extra, hblock, hpost⟩
  · exact Or.inr ⟨extra, hrest⟩
  · cases extra with
    | nil => exact Or.inr ⟨[], hpost.symm⟩
    | cons w' us =>
        obtain ⟨rfl, rfl⟩ := List.cons.inj hpost
        refine Or.inl ⟨us, fun u hu => ht.inert_of_mem_tail u ?_, rfl⟩
        cases pre with
        | nil =>
            obtain ⟨-, htail⟩ := List.cons.inj hblock
            rwa [htail]
        | cons p pre =>
            obtain ⟨-, htail⟩ := List.cons.inj hblock
            rw [htail]
            exact List.mem_append_right _ (List.mem_cons_of_mem _ hu)

/-- Behind each word of a text of thresholds stands an inert word, an `and` or a term, and a term only behind
an `and`. -/
theorem cases_of_wordsOf_eq (h : ∀ t' ∈ t :: ts, t'.WellFormed) (pre : List (List Char)) (w : List Char)
    (post : List (List Char)) (hsplit : wordsOf t ts = pre ++ w :: post) :
    (∀ u ∈ post.head?, Inert u ∨ u = "and".toList)
      ∨ w = "and".toList ∧ ∃ t' ∈ ts, ∃ ts', post = wordsOf t' ts' := by
  induction ts generalizing t pre with
  | nil =>
      rcases (h t List.mem_cons_self).cases_of_append _ pre w post hsplit with
        ⟨us, hus, rfl⟩ | ⟨extra, hextra⟩
      · refine Or.inl fun u hu => Or.inl (hus u (List.mem_of_mem_head? ?_))
        simpa using hu
      · simp at hextra
  | cons t' ts ih =>
      obtain ⟨ht, hts⟩ := List.forall_mem_cons.mp h
      rcases ht.cases_of_append _ pre w post hsplit with ⟨us, hus, rfl⟩ | ⟨extra, hextra⟩
      · refine Or.inl fun u hu => ?_
        cases us with
        | nil => exact Or.inr (by simpa using hu.symm)
        | cons u' us =>
            obtain rfl : u' = u := by simpa using hu
            exact Or.inl (hus u' List.mem_cons_self)
      · rw [more_cons] at hextra
        cases extra with
        | nil =>
            obtain ⟨rfl, rfl⟩ := List.cons.inj hextra
            exact Or.inr ⟨rfl, t', List.mem_cons_self, ts, rfl⟩
        | cons w' extra =>
            obtain ⟨-, hlater⟩ := List.cons.inj hextra
            rcases ih hts extra hlater with hleft | ⟨hand, t'', ht'', hpost⟩
            · exact Or.inl hleft
            · exact Or.inr ⟨hand, t'', List.mem_cons_of_mem _ ht'', hpost⟩

/-- A phrase none of whose words is that of a threshold. -/
def ForeignPhrase (phrase : String) : Prop :=
  phrase.toList = spaced (words phrase.toList) ∧ words phrase.toList ≠ []
    ∧ ∀ u ∈ words phrase.toList, Foreign u ∧ ¬ Folds u "and".toList

instance (phrase : String) : Decidable (ForeignPhrase phrase) :=
  inferInstanceAs (Decidable (_ ∧ _ ∧ _))

/-- Where a foreign phrase stands for the term of a threshold, a pattern stops between two words. -/
def StopsBetweenWords (q : Pattern) : Prop :=
  ∀ (t : Threshold) (rest : List (List Char)), t.WellFormed → AreWords (t.tail ++ rest) →
    ∀ r ∈ q.runs (some ' ') (spaced (t.tail ++ rest)), ∃ ws', ws' <:+ t.tail ++ rest ∧ r.rest = following ws'

/-- The first word behind a term is one of the tail of its threshold. -/
theorem mem_tail_of_append_eq {t : Threshold} {v : List Char} {vs rest : List (List Char)}
    (h : v :: vs = t.tail ++ rest) : v ∈ t.tail := by
  obtain ⟨x, xs, hx⟩ := List.exists_cons_of_ne_nil t.tail_ne_nil
  rw [hx] at h ⊢
  rw [(List.cons.inj h).1]
  exact List.mem_cons_self

/-- A foreign phrase behind a word of the text is the term of a threshold, the word is the `and` before it,
and the pattern behind the phrase stops between words. -/
theorem and_of_mem_runs_foreign {phrase : String} {q : Pattern} (hforeign : ForeignPhrase phrase)
    (hq : StopsBetweenWords q) {t : Threshold} {ts : List Threshold} (h : ∀ t' ∈ t :: ts, t'.WellFormed)
    (pre : List (List Char)) (w : List Char) (post : List (List Char))
    (hsplit : wordsOf t ts = pre ++ w :: post) :
    ∀ r ∈ (lit phrase ++ (spaces ++ q)).runs (some ' ') (spaced post),
      w = "and".toList ∧ ∃ ws', ws' <:+ post ∧ r.rest = following ws' := by
  intro r hr
  obtain ⟨htext, hne, hwords⟩ := hforeign
  have hpost : AreWords post := fun v hv => areWords_wordsOf t ts h v (by rw [hsplit]; simp [hv])
  obtain ⟨ws₁, ws₂, rfl, hfolds, -, r', hr', -, hrest⟩ :=
    mem_runs_phrase phrase _ htext (areWords_words _) hne hpost r hr
  have hws₂ : AreWords ws₂ := fun v hv => hpost v (List.mem_append_right _ hv)
  obtain ⟨u, us, hus⟩ := List.exists_cons_of_ne_nil hne
  rw [hus] at hfolds hwords
  obtain ⟨⟨hu, hnotand⟩, hus⟩ := List.forall_mem_cons.mp hwords
  cases hfolds with
  | @cons _ v _ vs hfold hfolds =>
      rcases cases_of_wordsOf_eq h pre w _ hsplit with hinert | ⟨rfl, t', ht', ts', hterm⟩
      · rcases hinert v rfl with hinert | rfl
        · exact absurd hfold (hu.not_folds hinert)
        · exact absurd hfold hnotand
      · have hbehind : vs ++ ws₂ = t'.tail ++ more ts' := (List.cons.inj hterm).2
        have ht' := h t' (List.mem_cons_of_mem t ht')
        refine ⟨rfl, ?_⟩
        -- behind the term the threshold goes on with inert words, so the phrase has no other words
        cases hfolds with
        | @cons u' v' _ vs hfold' _ =>
            have hv' : v' ∈ t'.tail := mem_tail_of_append_eq hbehind
            exact absurd hfold' ((hus u' List.mem_cons_self).1.not_folds (ht'.inert_of_mem_tail v' hv'))
        | nil =>
            rw [List.nil_append] at hbehind
            rw [hbehind] at hr' hws₂ ⊢
            obtain ⟨ws', hws', hrest'⟩ := hq t' (more ts') ht' hws₂ r' hr'
            exact ⟨ws', hws'.trans (List.suffix_append _ _), hrest.trans hrest'⟩

/-- **What the other rules capture** in a text of thresholds: the only term before a foreign phrase is an
`and`, as the phrase can only be the term of the threshold behind it. -/
theorem exists_and_of_captured (phrase : String) (q : Pattern) (hforeign : ForeignPhrase phrase)
    (hq : StopsBetweenWords q) (t : Threshold) (ts : List Threshold) (h : ∀ t' ∈ t :: ts, t'.WellFormed) :
    ∀ cs ∈ (Pattern.term .word (lit phrase ++ (spaces ++ q))).captured (spaced (wordsOf t ts)),
      ∃ rest, cs = "and" :: rest := by
  intro cs hcs
  have hand : IsRun .word "and".toList := ⟨by decide, List.all_eq_true.mp (by decide +kernel)⟩
  obtain ⟨w, rest, rfl, rfl⟩ := exists_head_of_captured (by decide +kernel) (· = "and".toList)
    (by rintro w rfl; exact hand) (wordsOf t ts) (areWords_wordsOf t ts h)
    (and_of_mem_runs_foreign hforeign hq h) cs hcs
  exact ⟨rest, by simp⟩

/-- A captured word is all of the first word of a phrase, or there is none. -/
theorem stopsBetweenWords_word : StopsBetweenWords (capture word) := by
  intro t rest ht hws r hr
  have hall : ∀ vs ∈ phraseWords, ∀ v ∈ vs, v.all isWordChar ∨ v.head?.any isWordChar = false := by
    decide +kernel
  obtain ⟨hmem, -, hne⟩ := ht.words_phrase
  obtain ⟨v, vs, hvs⟩ := List.exists_cons_of_ne_nil hne
  have hsplit : t.tail ++ rest = v :: (vs ++ t.number.toList :: rest) := by
    rw [tail_append, hvs, List.cons_append]
  have hv : v ≠ [] := (hws v (by simp [hsplit])).1
  rw [hsplit, spaced_cons] at hr
  rw [hsplit]
  rcases hall _ hmem v (by simp [hvs]) with hword | hnone
  · have hend : ∀ c ∈ (following (vs ++ t.number.toList :: rest)).head?,
        CharClass.word.contains c = false := by
      intro c hc
      rw [following_of_ne_nil _ (by simp)] at hc
      obtain rfl : ' ' = c := by simpa using hc
      decide +kernel
    rw [runs, word, runs_run .word _ v _ ⟨hv, List.all_eq_true.mp hword⟩ hend] at hr
    obtain rfl := List.mem_singleton.mp hr
    exact ⟨_, List.suffix_cons _ _, rfl⟩
  · obtain ⟨c, hc, hword⟩ : ∃ c ∈ (v ++ following _).head?, CharClass.word.contains c :=
      exists_head_of_mem_runs rfl _ _ r hr
    rw [List.head?_append_of_ne_nil _ hv] at hc
    rw [Option.mem_def.mp hc] at hnone
    exact absurd hword (by simpa [CharClass.contains] using hnone)

/-- A captured run and a foreign word do not both stand behind the term of a threshold. -/
theorem stopsBetweenWords_term (cls : CharClass) (hcls : cls.contains ' ' = false) (text : String)
    (hforeign : words text.toList = [text.toList] ∧ Foreign text.toList) (q : Pattern) :
    StopsBetweenWords (Pattern.term cls (lit text ++ (spaces ++ q))) := by
  intro t rest ht hws r hr
  obtain ⟨hword, hforeign⟩ := hforeign
  obtain ⟨-, -, hne⟩ := ht.words_phrase
  obtain ⟨v, vs, hvs⟩ := List.exists_cons_of_ne_nil hne
  have hsplit : t.tail ++ rest = v :: (vs ++ t.number.toList :: rest) := by
    rw [tail_append, hvs, List.cons_append]
  rw [hsplit] at hws hr
  obtain ⟨⟨-, hv⟩, hbehind⟩ := List.forall_mem_cons.mp hws
  rw [spaced_cons] at hr
  obtain ⟨-, -, r', hr', -⟩ := mem_runs_term hcls v hv hbehind r hr
  have htext : AreWords [text.toList] := by
    rw [← hword]
    exact areWords_words _
  obtain ⟨ws₁, ws₂, hws₁, hfolds, -⟩ :=
    mem_runs_phrase text [text.toList] (by simp) htext (List.cons_ne_nil _ _) hbehind r' hr'
  cases hfolds with
  | @cons _ w _ _ hfold _ =>
      refine absurd hfold (hforeign.not_folds (ht.inert_of_mem_tail w ?_))
      -- it is the second word of the phrase, or the number
      rw [tail, hvs]
      cases vs with
      | nil => simp [(List.cons.inj hws₁).1]
      | cons v' vs => simp [(List.cons.inj hws₁).1]

end Threshold

end TextToSql.Intent
