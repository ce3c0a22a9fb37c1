import TextToSql.Proofs.Singular
import TextToSql.Proofs.Text.Lowered

/-!
# What the normal form leaves alone

The words of a normal form are in lower case, have nothing to strip and are no plurals, so no step changes
them again. But plurals are reduced after the stopwords are dropped, so that a singular can be a stopword:
these words, and no others, are dropped if the normal form is taken again. Dates, decimals and operators are
left alone from the start.

* `isNormal_of_mem_cleanWords` : the words of a normal form are normal;
* `IsNormal.cleanWords_eq` : a normal word is its own normal form, unless it is a stopword;
* `cleanText_local` : the normal form goes word by word, and dates, decimals and operators stay in place;
* `cleanText_again` : the normal form of a normal form.
-/

namespace TextToSql.Normalize

open Unicode Text

/-! ## Punctuation -/

/-- Digits are kept. -/
theorem isKept_of_isDigit (c : Char) (h : c.isDigit) : isKept c :=
  isPlainChar_elim (p := fun c => isKept c) (by decide +kernel) c (isPlainChar_of_isDigit c h)

/-- What a character becomes is a digit exactly if the character is one: digits are kept, and what is not kept
becomes a space. -/
theorem isDigitAt_stripChar (before : Option Char) (c : Char) (after : Option Char) :
    isDigitAt (some (stripChar before c after)) = isDigitAt (some c) := by
  unfold stripChar
  split
  · rfl
  · next hstripped =>
      have hdigit : c.isDigit = false := by
        by_contra hdigit
        rw [Bool.not_eq_false] at hdigit
        simp [isKept_of_isDigit c hdigit] at hstripped
      exact hdigit.symm

/-- What a character becomes, it stays, beside the same digits. -/
theorem stripChar_stripChar (before before' : Option Char) (c : Char) (after after' : Option Char)
    (hbefore : isDigitAt before' = isDigitAt before) (hafter : isDigitAt after' = isDigitAt after) :
    stripChar before' (stripChar before c after) after' = stripChar before c after := by
  have hspace : stripChar before' ' ' after' = ' ' := stripChar_white before' after' ' ' (by decide)
  have hagain : stripChar before' c after' = stripChar before c after := by
    rw [stripChar, stripChar, hbefore, hafter]
  by_cases hc : stripChar before c after = c
  · rw [hc, hagain, hc]
  · have hstripped : stripChar before c after = ' ' := by
      unfold stripChar at hc ⊢
      split at hc
      · exact absurd rfl hc
      · next hif => rw [if_neg hif]
    rw [hstripped, hspace]

/-- A stripped text has nothing to strip behind a character that is a digit like the one before it was. -/
theorem stripAfter_stripAfter (before before' : Option Char) (s : List Char)
    (h : isDigitAt before' = isDigitAt before) :
    stripAfter before' (stripAfter before s) = stripAfter before s := by
  induction s generalizing before before' with
  | nil => rfl
  | cons c s ih =>
      have hafter : isDigitAt (stripAfter (some c) s).head? = isDigitAt s.head? := by
        cases s with
        | nil => rfl
        | cons d s => exact isDigitAt_stripChar (some c) d s.head?
      rw [stripAfter, stripAfter, stripChar_stripChar before before' c s.head? _ h hafter,
        ih _ _ (isDigitAt_stripChar before c s.head?)]

/-- **A stripped text has nothing to strip.** -/
theorem strip_strip (s : List Char) : strip (strip s) = strip s :=
  stripAfter_stripAfter none none s rfl

/-- A text keeps its length. -/
theorem length_strip (s : List Char) : (strip s).length = s.length := by
  suffices h : ∀ before, (stripAfter before s).length = s.length by exact h none
  induction s with
  | nil => exact fun before => rfl
  | cons c s ih => exact fun before => congrArg (· + 1) (ih (some c))

/-- The words of a text without anything to strip have nothing to strip. -/
theorem strip_of_mem_words (s : List Char) (hs : strip s = s) : ∀ w ∈ words s, strip w = w := by
  induction s using cut_induction with
  | whiteFree s hfree =>
      by_cases hne : s = []
      · subst hne
        exact fun w hw => absurd hw List.not_mem_nil
      · rw [words_of_whiteFree s hfree hne]
        exact List.forall_mem_singleton.mpr hs
  | cut s c t hc ihs iht =>
      rw [strip_append_white s t c hc] at hs
      obtain ⟨hs', ht'⟩ := List.append_inj hs (length_strip s)
      intro w hw
      rw [words_append_white s t c hc] at hw
      rcases List.mem_append.mp hw with hw | hw
      · exact ihs hs' w hw
      · exact iht (List.cons.inj ht').2 w hw

/-- Stripping leaves a text in lower case. -/
theorem lowered_strip (s : List Char) (hs : Lowered s) : Lowered (strip s) := by
  have hspace : IsLowered ' ' := by decide +kernel
  suffices h : ∀ before, Lowered (stripAfter before s) by exact h none
  induction s with
  | nil => exact fun before c hc => absurd hc List.not_mem_nil
  | cons c s ih =>
      obtain ⟨hc, hs⟩ := List.forall_mem_cons.mp hs
      intro before
      refine List.forall_mem_cons.mpr ⟨?_, ih hs (some c)⟩
      unfold stripChar
      split
      · exact hc
      · exact hspace

/-! ## Plurals -/

/-- A word that does not end in `s` has no singular. -/
theorem singular?_of_not_endsIn (word : List Char) (h : endsIn word "s" = false) : singular? word = none := by
  -- all the endings of plurals end in `s`
  have hnone : ∀ ending : String, "s".toList <:+ ending.toList → endsIn word ending = false := by
    intro ending hs
    rw [Bool.eq_false_iff] at h ⊢
    intro hending
    exact h (List.isSuffixOf_iff_suffix.mpr (hs.trans (List.isSuffixOf_iff_suffix.mp hending)))
  unfold singular?
  split
  · rfl
  · rw [hnone "ss" (by decide), hnone "us" (by decide), hnone "is" (by decide), hnone "ies" (by decide),
      hnone "ches" (by decide), hnone "shes" (by decide), hnone "xes" (by decide), hnone "sses" (by decide), h]
    rfl

/-- A word with a character that is no letter has no singular. -/
theorem singular?_of_not_isAlphabetic (word : List Char) (h : ∃ c ∈ word, isAlphabetic c = false) :
    singular? word = none := by
  have hall : word.all isAlphabetic = false := by
    simpa using h
  rw [singular?, hall, Bool.not_false, Bool.or_true, if_pos rfl]

/-- Only words of letters have a singular. -/
theorem isAlphabetic_of_singular? (word stem : List Char) (h : singular? word = some stem) :
    ∀ c ∈ word, isAlphabetic c := by
  intro c hc
  by_contra hletter
  rw [singular?_of_not_isAlphabetic word ⟨c, hc, by simpa using hletter⟩] at h
  cases h

/-- A word that ends in `ss` has no singular. -/
theorem singular?_of_endsIn_ss (word : List Char) (h : endsIn word "ss") : singular? word = none := by
  unfold singular?
  split
  · rfl
  · rw [h, Bool.true_or, Bool.true_or, if_pos rfl]

/-- What is left of a word without the last of the letters that it ends in. -/
theorem withoutLast_append_append (front kept cut : List Char) :
    withoutLast cut.length (front ++ (kept ++ cut)) = front ++ kept := by
  rw [← List.append_assoc, withoutLast_append]

/-- **A singular has no singular.** -/
theorem singular?_singular (word stem : List Char) (h : singular? word = some stem) : singular? stem = none := by
  have hend : ∀ (front : List Char) (c : Char), c ≠ 's' → endsIn (front ++ [c]) "s" = false := by
    intro front c hc
    simp [endsIn, List.isSuffixOf, List.isPrefixOf, hc.symm]
  have hcut : ∀ (ending : String) (kept : List Char), ending.toList = kept ++ ['e', 's'] →
      endsIn word ending → ∃ front, withoutLast 2 word = front ++ kept := by
    intro ending kept hending hword
    obtain ⟨front, rfl⟩ := List.isSuffixOf_iff_suffix.mp hword
    exact ⟨front, by rw [hending]; exact withoutLast_append_append front kept ['e', 's']⟩
  unfold singular? at h
  split at h
  · cases h
  · split at h
    · cases h
    · next hss =>
      split at h
      · cases h
        exact singular?_of_not_endsIn _ (hend _ 'y' (by decide))
      · split at h
        · next hes =>
            cases h
            simp only [Bool.or_eq_true] at hes
            rcases hes with ((hes | hes) | hes) | hes
            · obtain ⟨front, hstem⟩ := hcut "ches" ['c', 'h'] rfl hes
              rw [hstem]
              exact singular?_of_not_endsIn _ (by simpa using hend (front ++ ['c']) 'h' (by decide))
            · obtain ⟨front, hstem⟩ := hcut "shes" ['s', 'h'] rfl hes
              rw [hstem]
              exact singular?_of_not_endsIn _ (by simpa using hend (front ++ ['s']) 'h' (by decide))
            · obtain ⟨front, hstem⟩ := hcut "xes" ['x'] rfl hes
              rw [hstem]
              exact singular?_of_not_endsIn _ (hend front 'x' (by decide))
            -- what `sses` leaves ends in `ss`
            · obtain ⟨front, hstem⟩ := hcut "sses" ['s', 's'] rfl hes
              rw [hstem]
              exact singular?_of_endsIn_ss _ (List.isSuffixOf_iff_suffix.mpr ⟨front, rfl⟩)
        · split at h
          · next hs =>
              cases h
              obtain ⟨front, rfl⟩ := List.isSuffixOf_iff_suffix.mp hs
              have hfront : withoutLast 1 (front ++ "s".toList) = front := withoutLast_append front "s".toList
              have hplural : endsIn (front ++ "s".toList) "ss" = endsIn front "s" := endsIn_plural front "s"
              rw [hfront]
              refine singular?_of_not_endsIn _ ?_
              rw [← hplural]
              simp only [Bool.or_eq_true, not_or, Bool.not_eq_true] at hss
              exact hss.1.1
          · cases h

/-- A base form is the word itself or its singular. -/
theorem baseForm_cases (protectedWords : List String) (word : List Char) :
    baseForm protectedWords word = word
      ∨ String.ofList word ∉ protectedWords ∧ singular? word = some (baseForm protectedWords word) := by
  unfold baseForm
  split
  · exact .inl rfl
  · next hunprotected =>
      split
      · exact .inl rfl
      · next stem hstem =>
          split
          · exact .inl rfl
          · exact .inr ⟨by simpa using hunprotected, hstem⟩

/-- A word without a singular is its base form. -/
theorem baseForm_of_singular? (protectedWords : List String) (word : List Char) (h : singular? word = none) :
    baseForm protectedWords word = word := by
  unfold baseForm
  split
  · rfl
  · rw [h]

/-- **The base form of a base form is itself.** -/
theorem baseForm_baseForm (protectedWords : List String) (word : List Char) :
    baseForm protectedWords (baseForm protectedWords word) = baseForm protectedWords word := by
  rcases baseForm_cases protectedWords word with hsame | ⟨-, hsingular⟩
  · rw [hsame, hsame]
  · exact baseForm_of_singular? protectedWords _ (singular?_singular word _ hsingular)

/-! ## Normal words -/

/-- A word that no step of the normal form changes. -/
structure IsNormal (protectedWords : List String) (word : List Char) : Prop where
  ne_nil : word ≠ []
  whiteFree : WhiteFree word
  lowered : Lowered word
  stripped : strip word = word
  based : baseForm protectedWords word = word

/-- Whether a word is no stopword. -/
def isContent (word : List Char) : Bool := !stopwords.contains (String.ofList word)

/-- The words of a text have no other characters than the text. -/
theorem mem_of_mem_words (s w : List Char) (hw : w ∈ words s) : ∀ c ∈ w, c ∈ s := by
  induction s using cut_induction with
  | whiteFree s hfree =>
      by_cases hne : s = []
      · subst hne
        exact absurd hw List.not_mem_nil
      · rw [words_of_whiteFree s hfree hne] at hw
        obtain rfl := List.mem_singleton.mp hw
        exact fun c hc => hc
  | cut s c t hc ihs iht =>
      intro d hd
      rw [words_append_white s t c hc] at hw
      rcases List.mem_append.mp hw with hw | hw
      · exact List.mem_append_left _ (ihs hw d hd)
      · exact List.mem_append_right _ (List.mem_cons_of_mem _ (iht hw d hd))

/-- The base form of a word in lower case without anything to strip is normal. -/
theorem isNormal_baseForm (protectedWords : List String) (word : List Char) (hne : word ≠ [])
    (hfree : WhiteFree word) (hlowered : Lowered word) (hstripped : strip word = word) :
    IsNormal protectedWords (baseForm protectedWords word) := by
  obtain ⟨hbasene, hbasefree⟩ := baseForm_isWord protectedWords word hne hfree
  suffices h : Lowered (baseForm protectedWords word)
      ∧ strip (baseForm protectedWords word) = baseForm protectedWords word from
    ⟨hbasene, hbasefree, h.1, h.2, baseForm_baseForm protectedWords word⟩
  rcases baseForm_cases protectedWords word with hsame | ⟨-, hsingular⟩
  · rw [hsame]
    exact ⟨hlowered, hstripped⟩
  -- a singular has letters of the word and perhaps a `y`
  · have hy : IsLowered 'y' ∧ isAlphabetic 'y' := by decide +kernel
    have hchars : ∀ c ∈ baseForm protectedWords word, IsLowered c ∧ isAlphabetic c := by
      intro c hc
      rcases (ne_nil_and_mem_or_eq_of_singular? word _ hsingular).2 c hc with hc | rfl
      · exact ⟨hlowered c hc, isAlphabetic_of_singular? word _ hsingular c hc⟩
      · exact hy
    refine ⟨fun c hc => (hchars c hc).1, strip_of_isKept _ fun c hc => ?_⟩
    simp [isKept, (hchars c hc).2]

/-- **The words of a normal form are normal.** -/
theorem isNormal_of_mem_cleanWords (protectedWords : List String) (s word : List Char)
    (h : word ∈ cleanWords protectedWords s) : IsNormal protectedWords word := by
  obtain ⟨w, hw, rfl⟩ := List.mem_map.mp h
  have hmem := List.mem_of_mem_filter hw
  refine isNormal_baseForm protectedWords w (words_ne_nil _ w hmem) (words_white_free _ w hmem) ?_ ?_
  · intro c hc
    exact lowered_strip _ (lowered_lower s) c (mem_of_mem_words _ w hmem c hc)
  · exact strip_of_mem_words _ (strip_strip _) w hmem

/-- **A normal word is its own normal form**, unless it is a stopword. -/
theorem IsNormal.cleanWords_eq {protectedWords : List String} {word : List Char}
    (h : IsNormal protectedWords word) : cleanWords protectedWords word = [word].filter isContent := by
  have hwords : words (strip (lower word)) = [word] := by
    rw [h.lowered.lower_eq, h.stripped, words_of_whiteFree word h.whiteFree h.ne_nil]
  rw [cleanWords, hwords]
  show ([word].filter isContent).map (baseForm protectedWords) = _
  by_cases hcontent : isContent word
  · simp [hcontent, h.based]
  · simp [hcontent]

/-! ## Dates, decimals and operators -/

/-- Runs of ASCII digits that single hyphens or points join, as in dates and decimals. -/
inductive JoinedDigits : List Char → Prop
  | run (digits : List Char) (hne : digits ≠ []) (hdigits : ∀ c ∈ digits, c.isDigit) : JoinedDigits digits
  | join (digits : List Char) (joint : Char) (rest : List Char) (hne : digits ≠ [])
      (hdigits : ∀ c ∈ digits, c.isDigit) (hjoint : joint = '-' ∨ joint = '.') (hrest : JoinedDigits rest) :
      JoinedDigits (digits ++ joint :: rest)

/-- One or more characters of comparison signs. -/
def IsOperator (s : List Char) : Prop := s ≠ [] ∧ ∀ c ∈ s, c ∈ ['<', '>', '=', '!']

instance (s : List Char) : Decidable (IsOperator s) :=
  inferInstanceAs (Decidable (s ≠ [] ∧ ∀ c ∈ s, c ∈ ['<', '>', '=', '!']))

/-- Digits are in lower case and no white space. -/
theorem isLowered_and_not_isWhite_of_isDigit (c : Char) (h : c.isDigit) : IsLowered c ∧ isWhite c = false :=
  isPlainChar_elim (p := fun c => IsLowered c ∧ isWhite c = false) (by decide +kernel) c
    (isPlainChar_of_isDigit c h)

/-- Digits are no letters. -/
theorem isAlphabetic_eq_false_of_isDigit (c : Char) (h : c.isDigit) : isAlphabetic c = false :=
  isPlainChar_elim (p := fun c => c.isDigit → isAlphabetic c = false) (by decide +kernel) c
    (isPlainChar_of_isDigit c h) h

/-- Joined digits start with a digit. -/
theorem JoinedDigits.head_isDigit {s : List Char} (h : JoinedDigits s) : ∃ d ∈ s.head?, d.isDigit := by
  cases h with
  | run digits hne hdigits =>
      obtain ⟨d, digits, rfl⟩ := List.exists_cons_of_ne_nil hne
      exact ⟨d, rfl, hdigits d List.mem_cons_self⟩
  | join digits joint rest hne hdigits =>
      obtain ⟨d, digits, rfl⟩ := List.exists_cons_of_ne_nil hne
      exact ⟨d, rfl, hdigits d List.mem_cons_self⟩

/-- Joined digits are in lower case and have no white space. -/
theorem JoinedDigits.isLowered_and_not_isWhite {s : List Char} (h : JoinedDigits s) :
    ∀ c ∈ s, IsLowered c ∧ isWhite c = false := by
  have hjoints : ∀ c, c = '-' ∨ c = '.' → IsLowered c ∧ isWhite c = false := by
    rintro c (rfl | rfl) <;> decide +kernel
  have hdigit : ∀ digits : List Char, (∀ c ∈ digits, c.isDigit) →
      ∀ c ∈ digits, IsLowered c ∧ isWhite c = false :=
    fun digits hdigits c hc => isLowered_and_not_isWhite_of_isDigit c (hdigits c hc)
  induction h with
  | run digits _ hdigits => exact hdigit digits hdigits
  | join digits joint rest _ hdigits hjoint _ ih =>
      intro c hc
      rcases List.mem_append.mp hc with hc | hc
      · exact hdigit digits hdigits c hc
      · rcases List.mem_cons.mp hc with rfl | hc
        · exact hjoints c hjoint
        · exact ih c hc

/-- **Nothing is stripped of joined digits**: each hyphen or point stands between two digits. -/
theorem JoinedDigits.stripAfter_eq {s : List Char} (h : JoinedDigits s) (before : Option Char) :
    stripAfter before s = s := by
  have hkept : ∀ digits : List Char, (∀ c ∈ digits, c.isDigit) → ∀ c ∈ digits, isKept c :=
    fun digits hdigits c hc => isKept_of_isDigit c (hdigits c hc)
  induction h generalizing before with
  | run digits _ hdigits =>
      have hstrip := stripAfter_append_of_isKept before digits [] (hkept digits hdigits)
      rwa [List.append_nil, stripAfter, List.append_nil] at hstrip
  | join digits joint rest hne hdigits hjoint hrest ih =>
      have hlast : isDigitAt (digits.getLast?.or before) := by
        rw [List.getLast?_eq_some_getLast hne]
        exact hdigits _ (List.getLast_mem hne)
      have hhead : isDigitAt rest.head? := by
        obtain ⟨d, hd, hdigit⟩ := hrest.head_isDigit
        rw [Option.mem_def.mp hd]
        exact hdigit
      have hstays : stripChar (digits.getLast?.or before) joint rest.head? = joint := by
        have hjoint' : (joint = '-' || joint = '.') = true := by simpa using hjoint
        rw [stripChar, hjoint', hlast, hhead, Bool.true_and, Bool.true_and, Bool.or_true, if_pos rfl]
      rw [stripAfter_append_of_isKept before digits _ (hkept digits hdigits), stripAfter, hstays, ih]

/-- A word in lower case without anything to strip that starts with no letter is its own normal form. -/
theorem cleanWords_of_sign (protectedWords : List String) (word : List Char)
    (hchars : ∀ c ∈ word, IsLowered c ∧ isWhite c = false) (hstripped : strip word = word)
    (hsign : ∃ c ∈ word, isAlphabetic c = false) : cleanWords protectedWords word = [word] := by
  have hletters : ∀ w ∈ stopwords, w.toList.all isAlphabetic := by decide +kernel
  obtain ⟨c, hc, hletter⟩ := hsign
  have hnormal : IsNormal protectedWords word :=
    ⟨List.ne_nil_of_mem hc, fun d hd => (hchars d hd).2, fun d hd => (hchars d hd).1, hstripped,
      baseForm_of_singular? protectedWords word (singular?_of_not_isAlphabetic word ⟨c, hc, hletter⟩)⟩
  have hcontent : isContent word := by
    by_contra hstop
    have hmem : String.ofList word ∈ stopwords := by simpa [isContent] using hstop
    have halphabetic := List.all_eq_true.mp (hletters _ hmem) c (by rwa [String.toList_ofList])
    rw [hletter] at halphabetic
    cases halphabetic
  rw [hnormal.cleanWords_eq]
  simp [hcontent]

/-- Joined digits are their own normal form. -/
theorem JoinedDigits.cleanWords_eq {s : List Char} (h : JoinedDigits s) (protectedWords : List String) :
    cleanWords protectedWords s = [s] := by
  obtain ⟨d, hd, hdigit⟩ := h.head_isDigit
  exact cleanWords_of_sign protectedWords s h.isLowered_and_not_isWhite (h.stripAfter_eq none)
    ⟨d, List.mem_of_mem_head? hd, isAlphabetic_eq_false_of_isDigit d hdigit⟩

/-- An operator is its own normal form. -/
theorem IsOperator.cleanWords_eq {s : List Char} (h : IsOperator s) (protectedWords : List String) :
    cleanWords protectedWords s = [s] := by
  have hsigns : ∀ c ∈ ['<', '>', '=', '!'],
      (IsLowered c ∧ isWhite c = false) ∧ isKept c ∧ isAlphabetic c = false := by
    simp only [List.forall_mem_cons, List.not_mem_nil, false_imp_iff, implies_true, and_true]
    decide +kernel
  obtain ⟨c, hc⟩ := List.exists_mem_of_ne_nil s h.1
  exact cleanWords_of_sign protectedWords s (fun d hd => (hsigns d (h.2 d hd)).1)
    (strip_of_isKept s fun d hd => (hsigns d (h.2 d hd)).2.1) ⟨c, hc, (hsigns c (h.2 c hc)).2.2⟩

/-- The words of the normal form of a string. -/
theorem wordsOf_cleanText (protectedWords : List String) (text : String) :
    wordsOf (cleanText protectedWords text) = (cleanWords protectedWords text.toList).map String.ofList := by
  rw [wordsOf, words_cleanText]

/-- **The normal form goes word by word.** A space cuts a text in two parts, and the words of its normal form
are those of the parts, one after the other. A word between white space that is made of digits joined by single
hyphens or points, or of comparison signs, is kept as it is, between the normal forms of what stands before and
behind it. -/
theorem cleanText_local (protectedWords : List String) :
    (∀ a b : String, wordsOf (cleanText protectedWords (a ++ " " ++ b))
        = wordsOf (cleanText protectedWords a) ++ wordsOf (cleanText protectedWords b))
      ∧ ∀ before word after : String,
          (∀ c ∈ before.toList.getLast?, isWhite c) → (∀ c ∈ after.toList.head?, isWhite c) →
          JoinedDigits word.toList ∨ IsOperator word.toList →
          wordsOf (cleanText protectedWords (before ++ word ++ after))
            = wordsOf (cleanText protectedWords before) ++ word
                :: wordsOf (cleanText protectedWords after) := by
  constructor
  · intro a b
    have hcut : (a ++ " " ++ b).toList = a.toList ++ ' ' :: b.toList := by simp
    rw [wordsOf_cleanText, hcut, cleanWords_append_white _ _ _ ' ' (by decide), List.map_append,
      wordsOf_cleanText, wordsOf_cleanText]
  · intro before word after hbefore hafter hword
    have hstays : cleanWords protectedWords word.toList = [word.toList] := by
      rcases hword with hdigits | hoperator
      · exact hdigits.cleanWords_eq protectedWords
      · exact hoperator.cleanWords_eq protectedWords
    have hparts : (before ++ word ++ after).toList = before.toList ++ word.toList ++ after.toList := by
      simp only [String.toList_append]
    rw [wordsOf_cleanText, hparts, cleanWords_delimited _ _ _ _ hbefore hafter, hstays, List.map_append,
      List.map_append, List.map_singleton, String.ofList_toList, List.append_assoc, List.singleton_append,
      wordsOf_cleanText, wordsOf_cleanText]

/-- A date stays as it is between other words, and a sigma at the end of a word is a final one wherever the word
stands. -/
theorem cleanText_local_dated :
    wordsOf (cleanText [] ("Sales, since 2023-01-31, of ΟΔΟΣ" ++ " " ++ "by the items"))
        = ["sales", "since", "2023-01-31", "of", "οδος", "by", "items"]
      ∧ wordsOf (cleanText [] ("Sales, since " ++ "2023-01-31" ++ " of ΟΔΟΣ"))
        = ["sales", "since", "2023-01-31", "of", "οδος"] := by
  have hspace : isWhite ' ' := by decide
  have hyear : ∀ c ∈ "2023".toList, c.isDigit := List.all_eq_true.mp (by decide)
  have hmonth : ∀ c ∈ "01".toList, c.isDigit := List.all_eq_true.mp (by decide)
  have hday : ∀ c ∈ "31".toList, c.isDigit := List.all_eq_true.mp (by decide)
  have hdate : JoinedDigits "2023-01-31".toList :=
    .join "2023".toList '-' "01-31".toList (by decide) hyear (.inl rfl)
      (.join "01".toList '-' "31".toList (by decide) hmonth (.inl rfl) (.run _ (by decide) hday))
  obtain ⟨hcut, hkept⟩ := cleanText_local []
  rw [hcut, hkept _ _ _ (by simpa using hspace) (by simpa using hspace) (.inl hdate)]
  decide +kernel

/-! ## The normal form of a normal form -/

/-- The words of the normal form of a normal form: the stopwords among them are dropped. -/
theorem cleanWords_cleanText (protectedWords : List String) (text : String) :
    cleanWords protectedWords (cleanText protectedWords text).toList
      = (cleanWords protectedWords text.toList).filter isContent := by
  rw [cleanWords_eq_flatMap, words_cleanText]
  have hnormal := isNormal_of_mem_cleanWords protectedWords text.toList
  generalize cleanWords protectedWords text.toList = ws at hnormal
  induction ws with
  | nil => rfl
  | cons w ws ih =>
      obtain ⟨hw, hws⟩ := List.forall_mem_cons.mp hnormal
      rw [List.flatMap_cons, hw.cleanWords_eq, ih hws, ← List.filter_append, List.singleton_append]

/-- **A stopword in a normal form** is the singular of a word that is neither a stopword nor protected. -/
theorem mem_cleanWords_iff_of_stopword (protectedWords : List String) (s : List Char) (stop : String)
    (hstop : stop ∈ stopwords) :
    stop.toList ∈ cleanWords protectedWords s
      ↔ ∃ plural ∈ words (strip (lower s)), String.ofList plural ∉ stopwords
          ∧ String.ofList plural ∉ protectedWords ∧ singular? plural = some stop.toList := by
  constructor
  · intro h
    obtain ⟨word, hword, hbase⟩ := List.mem_map.mp h
    obtain ⟨hmem, hcontent⟩ := List.mem_filter.mp hword
    have hword' : String.ofList word ∉ stopwords := by simpa using hcontent
    rcases baseForm_cases protectedWords word with hsame | ⟨hunprotected, hsingular⟩
    · rw [hsame] at hbase
      rw [hbase, String.ofList_toList] at hword'
      exact absurd hstop hword'
    · rw [hbase] at hsingular
      exact ⟨word, hmem, hword', hunprotected, hsingular⟩
  · rintro ⟨plural, hmem, hcontent, hunprotected, hsingular⟩
    -- the words that keep their plural have no stopword as their singular
    have hkept : ∀ w ∈ keptPlurals, (singular? w.toList).all isContent := by decide +kernel
    have hreduced : keptPlurals.contains (String.ofList plural) = false := by
      by_contra hplural
      rw [Bool.not_eq_false, List.contains_iff_mem] at hplural
      have hall := hkept _ hplural
      rw [String.toList_ofList, hsingular, Option.all_some] at hall
      simp [isContent, hstop] at hall
    have hbase : baseForm protectedWords plural = stop.toList := by
      have hprotected : protectedWords.contains (String.ofList plural) = false := by simpa using hunprotected
      rw [baseForm, hprotected, if_neg Bool.false_ne_true, hsingular]
      dsimp only
      rw [hreduced, Bool.false_and, if_neg Bool.false_ne_true]
    refine List.mem_map.mpr ⟨plural, List.mem_filter.mpr ⟨hmem, ?_⟩, hbase⟩
    simpa using hcontent

/-- A normal form is its words with spaces between them. -/
theorem intercalate_wordsOf_cleanText (protectedWords : List String) (text : String) :
    " ".intercalate (wordsOf (cleanText protectedWords text)) = cleanText protectedWords text := by
  rw [wordsOf_cleanText, cleanText]

/-- The words of the normal form of a normal form are its words without the stopwords. -/
theorem wordsOf_cleanText_cleanText (protectedWords : List String) (text : String) :
    wordsOf (cleanText protectedWords (cleanText protectedWords text))
      = (wordsOf (cleanText protectedWords text)).filter (· ∉ stopwords) := by
  rw [wordsOf_cleanText, cleanWords_cleanText, wordsOf_cleanText, List.filter_map]
  congr 2
  funext w
  simp [isContent]

/-- A normal form is its own normal form exactly if none of its words is a stopword. -/
theorem cleanText_cleanText_eq_iff (protectedWords : List String) (text : String) :
    cleanText protectedWords (cleanText protectedWords text) = cleanText protectedWords text
      ↔ ∀ word ∈ wordsOf (cleanText protectedWords text), word ∉ stopwords := by
  have hagain := wordsOf_cleanText_cleanText protectedWords text
  constructor
  · intro heq
    rw [heq, eq_comm, List.filter_eq_self] at hagain
    simpa using hagain
  · intro hnone
    rw [List.filter_eq_self.mpr (by simpa using hnone)] at hagain
    rw [← intercalate_wordsOf_cleanText protectedWords (cleanText protectedWords text), hagain,
      intercalate_wordsOf_cleanText]

/-- **The normal form of a normal form** has its words without the stopwords. So a normal form is its own
normal form exactly if none of its words is a stopword, that is, unless a stopword is the singular of some word
of the text, in lower case and without its punctuation, that is neither a stopword nor protected. Once they are
dropped, nothing changes any more. -/
theorem cleanText_again (protectedWords : List String) (text : String) :
    let clean := cleanText protectedWords text
    cleanText protectedWords clean = " ".intercalate ((wordsOf clean).filter (· ∉ stopwords))
      ∧ (cleanText protectedWords clean = clean ↔ ∀ word ∈ wordsOf clean, word ∉ stopwords)
      ∧ (∀ stop ∈ stopwords, stop ∈ wordsOf clean
          ↔ ∃ plural ∈ words (strip (lower text.toList)), String.ofList plural ∉ stopwords
              ∧ String.ofList plural ∉ protectedWords ∧ singular? plural = some stop.toList)
      ∧ (∀ word ∈ wordsOf (cleanText protectedWords clean), word ∉ stopwords)
      ∧ cleanText protectedWords (cleanText protectedWords clean) = cleanText protectedWords clean := by
  intro clean
  have hagain : wordsOf (cleanText protectedWords clean) = (wordsOf clean).filter (· ∉ stopwords) :=
    wordsOf_cleanText_cleanText protectedWords text
  have hdropped : ∀ word ∈ wordsOf (cleanText protectedWords clean), word ∉ stopwords := by
    intro word hword
    rw [hagain] at hword
    simpa using (List.mem_filter.mp hword).2
  refine ⟨?_, cleanText_cleanText_eq_iff protectedWords text, ?_, hdropped,
    (cleanText_cleanText_eq_iff protectedWords clean).mpr hdropped⟩
  · rw [← hagain, intercalate_wordsOf_cleanText]
  · intro stop hstop
    rw [← mem_cleanWords_iff_of_stopword protectedWords text.toList stop hstop, wordsOf_cleanText]
    constructor
    · intro hmem
      obtain ⟨word, hword, rfl⟩ := List.mem_map.mp hmem
      rwa [String.toList_ofList]
    · intro hmem
      exact List.mem_map.mpr ⟨_, hmem, String.ofList_toList⟩

/-- The normal form of a text about cans has a stopword, which is dropped from the normal form of that; without
the cans it is its own normal form. -/
theorem cleanText_again_cans :
    "can" ∈ wordsOf (cleanText ["paint"] "List the cans of paint!")
      ∧ cleanText ["paint"] (cleanText ["paint"] "List the cans of paint!") = "list of paint!"
      ∧ cleanText ["paint"] (cleanText ["paint"] "List the paint!") = cleanText ["paint"] "List the paint!" := by
  obtain ⟨hagain, -, hstop, -, -⟩ := cleanText_again ["paint"] "List the cans of paint!"
  obtain ⟨-, hsame, -, -, -⟩ := cleanText_again ["paint"] "List the paint!"
  refine ⟨(hstop "can" (by decide)).mpr ⟨"cans".toList, ?_⟩, hagain.trans ?_, hsame.mpr ?_⟩
  all_goals decide +kernel

/-- The singular of a word that is no stopword is one: it stays in the normal form and is dropped from the
normal form of that. -/
theorem not_normal_cans :
    let clean := cleanText [] "List the cans of paint!"
    clean = "list can of paint!" ∧ "can" ∈ wordsOf clean ∧ "can" ∈ stopwords
      ∧ cleanText [] clean = "list of paint!" ∧ cleanText [] clean ≠ clean := by
  decide +kernel

end TextToSql.Normalize
