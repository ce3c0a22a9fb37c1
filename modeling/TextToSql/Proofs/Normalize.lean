import TextToSql.Normalize
import TextToSql.Proofs.Text.Lower

/-!
# The normal form goes word by word

No step of the normal form looks across white space: lower case does not, and neither does the
stripping of punctuation, where a hyphen or a point stays only between two digits. So the normal form of
a text is made of the normal forms of its words, and a protected plain word is its own.

* `cleanWords_eq_flatMap` : the normal form goes word by word;
* `words_cleanText` : the words of a normal form are those that it is made of;
* `cleanWords_of_part` : protected plain words stay together, but for the stopwords among them;
* `mem_cleanWords` : a protected plain word that is no stopword stays, in whatever letter case it stands.
-/

namespace TextToSql.Normalize

open Unicode Text

/-! ## Punctuation -/

/-- White space is kept where it stands. -/
theorem stripChar_white (before after : Option Char) (c : Char) (hc : isWhite c) :
    stripChar before c after = c := by
  simp [stripChar, isKept, hc]

/-- White space is no digit: what it stands beside is stripped as at an end of the text. -/
theorem isDigitAt_white (c : Char) (hc : isWhite c) : isDigitAt (some c) = isDigitAt none :=
  isWhite_elim (p := fun c => isDigitAt (some c) = isDigitAt none) (by decide) c hc

/-- What stands behind a white space is stripped as at the start of a text. -/
theorem stripAfter_white (t : List Char) (c : Char) (hc : isWhite c) :
    stripAfter (some c) t = strip t := by
  cases t with
  | nil => rfl
  | cons d t =>
      rw [strip, stripAfter, stripAfter, stripChar, stripChar, isDigitAt_white c hc]

/-- A text that white space follows is stripped as if it ended there. -/
theorem stripAfter_append_white (before : Option Char) (s t : List Char) (c : Char) (hc : isWhite c) :
    stripAfter before (s ++ c :: t) = stripAfter before s ++ c :: strip t := by
  induction s generalizing before with
  | nil =>
      show stripChar before c t.head? :: stripAfter (some c) t = c :: strip t
      rw [stripChar_white before t.head? c hc, stripAfter_white t c hc]
  | cons d s ih =>
      have hd : stripChar before d (s ++ c :: t).head? = stripChar before d s.head? := by
        cases s with
        | nil =>
            show stripChar before d (some c) = stripChar before d none
            rw [stripChar, stripChar, isDigitAt_white c hc]
        | cons e s => rfl
      rw [List.cons_append, stripAfter, ih, hd, stripAfter, List.cons_append]

/-- White space cuts a text in two, and each part is stripped by itself. -/
theorem strip_append_white (s t : List Char) (c : Char) (hc : isWhite c) :
    strip (s ++ c :: t) = strip s ++ c :: strip t :=
  stripAfter_append_white none s t c hc

/-- Nothing is stripped of kept characters, whatever stands behind them. -/
theorem stripAfter_append_of_isKept (before : Option Char) (s t : List Char) (hs : ∀ c ∈ s, isKept c) :
    stripAfter before (s ++ t) = s ++ stripAfter (s.getLast?.or before) t := by
  induction s generalizing before with
  | nil => rfl
  | cons c s ih =>
      obtain ⟨hc, hs⟩ := List.forall_mem_cons.mp hs
      have hchar : stripChar before c (s ++ t).head? = c := by
        rw [stripChar, hc, Bool.true_or, if_pos rfl]
      have hlast : ((c :: s).getLast?).or before = (s.getLast?).or (some c) := by
        rw [List.getLast?_cons]
        cases s.getLast? <;> rfl
      rw [List.cons_append, stripAfter, hchar, ih (some c) hs, List.cons_append, hlast]

/-- Nothing is stripped of kept characters. -/
theorem strip_of_isKept (s : List Char) (hs : ∀ c ∈ s, isKept c) : strip s = s := by
  have hstrip := stripAfter_append_of_isKept none s [] hs
  rwa [List.append_nil, stripAfter, List.append_nil] at hstrip

/-- Nothing is stripped of a plain word. -/
theorem strip_of_isPlain (s : List Char) (hs : IsPlain s) : strip s = s := by
  have hkept : ∀ c, isPlainChar c → isKept c := isPlainChar_elim (by decide +kernel)
  exact strip_of_isKept s fun c hc => hkept c (hs c hc)

/-! ## Plurals -/

/-- A text has at least as many bytes as characters. -/
theorem length_le_byteLength (s : List Char) : s.length ≤ byteLength s := by
  suffices h : ∀ n, s.length + n ≤ s.foldl (fun bytes c => bytes + c.utf8Size) n by exact h 0
  induction s with
  | nil => intro n; simp
  | cons c s ih =>
      intro n
      have hpos := c.utf8Size_pos
      have hrest := ih (n + c.utf8Size)
      rw [List.length_cons, List.foldl_cons]
      omega

/-- A word without the letters that it ends in. -/
theorem withoutLast_append (word ending : List Char) :
    withoutLast ending.length (word ++ ending) = word := by
  simp [withoutLast]

/-- What is left of a word that ends in some letters, with fewer letters taken off, is not empty and has no
other characters. -/
theorem withoutLast_of_endsIn (n : Nat) (word : List Char) (ending : String) (h : endsIn word ending)
    (hn : n < ending.length) : withoutLast n word ≠ [] ∧ ∀ c ∈ withoutLast n word, c ∈ word := by
  have hlength := (List.isSuffixOf_iff_suffix.mp h).length_le
  rw [String.length_toList] at hlength
  refine ⟨?_, fun c hc => List.mem_of_mem_take hc⟩
  rw [withoutLast, ne_eq, List.take_eq_nil_iff, ← List.length_eq_zero_iff]
  omega

/-- The singular of a word is not empty and has no characters but those of the word and a `y`. -/
theorem ne_nil_and_mem_or_eq_of_singular? (word stem : List Char) (h : singular? word = some stem) :
    stem ≠ [] ∧ ∀ c ∈ stem, c ∈ word ∨ c = 'y' := by
  unfold singular? at h
  split at h
  · cases h
  · next hlong =>
    split at h
    · cases h
    · split at h
      · obtain rfl := Option.some.inj h
        refine ⟨by simp, ?_⟩
        intro c hc
        rcases List.mem_append.mp hc with hc | hc
        · exact .inl (List.mem_of_mem_take hc)
        · exact .inr (List.mem_singleton.mp hc)
      · split at h
        · next hes =>
            obtain rfl := Option.some.inj h
            have hstem : withoutLast 2 word ≠ [] ∧ ∀ c ∈ withoutLast 2 word, c ∈ word := by
              simp only [Bool.or_eq_true] at hes
              rcases hes with ((hes | hes) | hes) | hes <;>
                exact withoutLast_of_endsIn 2 word _ hes (by decide)
            exact ⟨hstem.1, fun c hc => .inl (hstem.2 c hc)⟩
        · split at h
          · next hs =>
              obtain rfl := Option.some.inj h
              obtain ⟨front, rfl⟩ := List.isSuffixOf_iff_suffix.mp hs
              refine ⟨?_, fun c hc => .inl (List.mem_of_mem_take hc)⟩
              -- an `s` alone is too short
              have hfront : withoutLast 1 (front ++ "s".toList) = front := withoutLast_append front "s".toList
              rw [hfront]
              rintro rfl
              exact absurd hlong (by decide +kernel)
          · cases h

/-- The base form of a word that is not empty and has no white space is such a word, too. -/
theorem baseForm_isWord (protectedWords : List String) (word : List Char) (hne : word ≠ [])
    (hfree : WhiteFree word) :
    baseForm protectedWords word ≠ [] ∧ WhiteFree (baseForm protectedWords word) := by
  unfold baseForm
  split
  · exact ⟨hne, hfree⟩
  · split
    · exact ⟨hne, hfree⟩
    · next stem hstem =>
        split
        · exact ⟨hne, hfree⟩
        · obtain ⟨hstemne, hchars⟩ := ne_nil_and_mem_or_eq_of_singular? word stem hstem
          refine ⟨hstemne, fun c hc => ?_⟩
          rcases hchars c hc with hc | rfl
          · exact hfree c hc
          · decide

/-! ## The normal form -/

/-- The words that a normal form is made of are words. -/
theorem isWord_of_mem_cleanWords (protectedWords : List String) (s word : List Char)
    (hword : word ∈ cleanWords protectedWords s) : word ≠ [] ∧ WhiteFree word := by
  obtain ⟨w, hw, rfl⟩ := List.mem_map.mp hword
  have hmem := List.mem_of_mem_filter hw
  exact baseForm_isWord protectedWords w (words_ne_nil _ w hmem) (words_white_free _ w hmem)

/-- The characters of a normal form are those of its words, with single spaces between them. -/
theorem toList_cleanText (protectedWords : List String) (text : String) :
    (cleanText protectedWords text).toList
      = [' '].intercalate (cleanWords protectedWords text.toList) := by
  rw [cleanText, String.toList_intercalate, List.map_map]
  simp [Function.comp_def]

/-- **The words of a normal form** are those that it is made of. -/
theorem words_cleanText (protectedWords : List String) (text : String) :
    words (cleanText protectedWords text).toList = cleanWords protectedWords text.toList := by
  rw [toList_cleanText]
  exact words_intercalate _ (isWord_of_mem_cleanWords protectedWords text.toList)

/-- White space cuts a text in two, and the normal form is that of its parts. -/
theorem cleanWords_append_white (protectedWords : List String) (s t : List Char) (c : Char)
    (hc : isWhite c) :
    cleanWords protectedWords (s ++ c :: t)
      = cleanWords protectedWords s ++ cleanWords protectedWords t := by
  rw [cleanWords, lower_append_white s t c hc, strip_append_white _ _ c hc, words_append_white _ _ c hc,
    List.filter_append, List.map_append, cleanWords, cleanWords]

/-- **The normal form goes word by word.** -/
theorem cleanWords_eq_flatMap (protectedWords : List String) (s : List Char) :
    cleanWords protectedWords s = (words s).flatMap (cleanWords protectedWords) := by
  induction s using cut_induction with
  | whiteFree s hs =>
      by_cases hne : s = []
      · subst hne
        rfl
      · rw [words_of_whiteFree s hs hne, List.flatMap_singleton]
  | cut s c t hc ihs iht =>
      rw [cleanWords_append_white protectedWords s t c hc, words_append_white s t c hc,
        List.flatMap_append, ihs, iht]

/-- Beside white space, or an end of the text, a part of a text has the normal form that it has by itself. -/
theorem cleanWords_delimited (protectedWords : List String) (before s after : List Char)
    (hbefore : ∀ c ∈ before.getLast?, isWhite c) (hafter : ∀ c ∈ after.head?, isWhite c) :
    cleanWords protectedWords (before ++ s ++ after)
      = cleanWords protectedWords before ++ cleanWords protectedWords s
          ++ cleanWords protectedWords after := by
  have hnil : cleanWords protectedWords [] = [] := rfl
  have hend : cleanWords protectedWords (s ++ after)
      = cleanWords protectedWords s ++ cleanWords protectedWords after := by
    cases after with
    | nil => rw [List.append_nil, hnil, List.append_nil]
    | cons c after =>
        have hc : isWhite c := hafter c rfl
        have hwhite := cleanWords_append_white protectedWords [] after c hc
        rw [List.nil_append, hnil, List.nil_append] at hwhite
        rw [cleanWords_append_white protectedWords s after c hc, hwhite]
  rcases List.eq_nil_or_concat before with rfl | ⟨front, c, rfl⟩
  · rw [List.nil_append, hend, hnil, List.nil_append]
  · have hc : isWhite c := hbefore c (by simp)
    have hfront := cleanWords_append_white protectedWords front [] c hc
    rw [hnil, List.append_nil] at hfront
    rw [List.concat_eq_append, hfront, List.append_assoc, List.append_assoc, List.singleton_append,
      cleanWords_append_white protectedWords front (s ++ after) c hc, hend, List.append_assoc]

/-- The normal form of a plain word is its base form, in whatever letter case it is written, unless it is a
stopword. -/
theorem cleanWords_of_plain (protectedWords : List String) (written : List Char) (hne : written ≠ [])
    (hplain : IsPlain (written.map Char.toLower)) :
    cleanWords protectedWords written
      = ([written.map Char.toLower].filter fun word => !stopwords.contains (String.ofList word)).map
          (baseForm protectedWords) := by
  have hwords : words (written.map Char.toLower) = [written.map Char.toLower] :=
    words_of_whiteFree _ hplain.whiteFree (by simpa using hne)
  rw [cleanWords, hplain.lower_written, strip_of_isPlain _ hplain, hwords]

/-- The normal form of a protected plain word is the word, in whatever letter case it is written, unless it
is a stopword. -/
theorem cleanWords_written (protectedWords : List String) (written : List Char) (hne : written ≠ [])
    (hplain : IsPlain (written.map Char.toLower))
    (hprotected : String.ofList (written.map Char.toLower) ∈ protectedWords) :
    cleanWords protectedWords written
      = [written.map Char.toLower].filter fun word => !stopwords.contains (String.ofList word) := by
  have hstays : baseForm protectedWords (written.map Char.toLower) = written.map Char.toLower := by
    rw [baseForm, if_pos (List.contains_iff_mem.mpr hprotected)]
  rw [cleanWords_of_plain protectedWords written hne hplain]
  by_cases hstop : String.ofList (written.map Char.toLower) ∈ stopwords
  · simp [hstop]
  · simp [hstop, hstays]

/-- **Protected plain words stay together in the normal form**, in whatever letter case they stand one after
the other among the words of the text, but for the stopwords among them. -/
theorem cleanWords_of_part (protectedWords : List String) (s : List Char) (written : List (List Char))
    (hwritten : written <:+: words s) (hplain : ∀ word ∈ written, IsPlain (word.map Char.toLower))
    (hprotected : ∀ word ∈ written, String.ofList (word.map Char.toLower) ∈ protectedWords) :
    ((written.map (List.map Char.toLower)).filter fun word =>
      !stopwords.contains (String.ofList word)) <:+: cleanWords protectedWords s := by
  have hclean : written.flatMap (cleanWords protectedWords)
      = (written.map (List.map Char.toLower)).filter fun word =>
          !stopwords.contains (String.ofList word) := by
    have hne : ∀ word ∈ written, word ≠ [] := fun word hword =>
      words_ne_nil s word (hwritten.subset hword)
    clear hwritten
    induction written with
    | nil => rfl
    | cons word written ih =>
        obtain ⟨hword, hrest⟩ := List.forall_mem_cons.mp hplain
        obtain ⟨hprotectedWord, hprotectedRest⟩ := List.forall_mem_cons.mp hprotected
        obtain ⟨hwordne, hrestne⟩ := List.forall_mem_cons.mp hne
        rw [List.flatMap_cons, cleanWords_written _ word hwordne hword hprotectedWord,
          ih hrest hprotectedRest hrestne, List.map_cons, ← List.filter_append, List.singleton_append]
  obtain ⟨front, back, hwords⟩ := hwritten
  rw [cleanWords_eq_flatMap, ← hwords, List.flatMap_append, List.flatMap_append, hclean]
  exact ⟨_, _, rfl⟩

/-- **A protected plain word that is no stopword stays in the normal form**, in whatever letter case it
stands among the words of the text. -/
theorem mem_cleanWords (protectedWords : List String) (s written : List Char)
    (hwritten : written ∈ words s) (hplain : IsPlain (written.map Char.toLower))
    (hstop : String.ofList (written.map Char.toLower) ∉ stopwords)
    (hprotected : String.ofList (written.map Char.toLower) ∈ protectedWords) :
    written.map Char.toLower ∈ cleanWords protectedWords s := by
  have hne : written ≠ [] := words_ne_nil s written hwritten
  rw [cleanWords_eq_flatMap, List.mem_flatMap]
  refine ⟨written, hwritten, ?_⟩
  rw [cleanWords_written protectedWords written hne hplain hprotected]
  simp [hstop]

/-- Pieces among others that are separated by spaces have a space, or an end, on either side. -/
theorem intercalate_of_part (pieces part : List (List Char)) (hne : part ≠ [])
    (hpart : part <:+: pieces) :
    ∃ before after, [' '].intercalate pieces = before ++ [' '].intercalate part ++ after
      ∧ (∀ c ∈ before.getLast?, c = ' ') ∧ ∀ c ∈ after.head?, c = ' ' := by
  obtain ⟨front, back, rfl⟩ := hpart
  obtain ⟨before, hfront, hbefore⟩ : ∃ before,
      [' '].intercalate (front ++ part) = before ++ [' '].intercalate part
        ∧ ∀ c ∈ before.getLast?, c = ' ' := by
    by_cases hfront : front = []
    · exact ⟨[], by simp [hfront], by simp⟩
    · exact ⟨[' '].intercalate front ++ [' '], intercalate_append _ _ _ hfront hne, by simp [eq_comm]⟩
  by_cases hback : back = []
  · exact ⟨before, [], by simp [hback, hfront], hbefore, by simp⟩
  · refine ⟨before, ' ' :: [' '].intercalate back, ?_, hbefore, by simp [eq_comm]⟩
    rw [intercalate_append _ _ _ (List.append_ne_nil_of_right_ne_nil _ hne) hback, hfront,
      List.append_assoc, List.singleton_append]

/-- Words that stand one after the other in the normal form have a space, or an end, on either side. -/
theorem cleanText_of_part (protectedWords : List String) (text : String) (part : List (List Char))
    (hne : part ≠ []) (hpart : part <:+: cleanWords protectedWords text.toList) :
    ∃ before after,
      (cleanText protectedWords text).toList = before ++ [' '].intercalate part ++ after
        ∧ (∀ c ∈ before.getLast?, c = ' ') ∧ ∀ c ∈ after.head?, c = ' ' := by
  rw [toList_cleanText]
  exact intercalate_of_part _ part hne hpart

/-- A word of the normal form has a space, or an end, on either side. -/
theorem cleanText_of_mem (protectedWords : List String) (text : String) (word : List Char)
    (hword : word ∈ cleanWords protectedWords text.toList) :
    ∃ before after, (cleanText protectedWords text).toList = before ++ word ++ after
      ∧ (∀ c ∈ before.getLast?, c = ' ') ∧ ∀ c ∈ after.head?, c = ' ' := by
  obtain ⟨front, back, hwords⟩ := List.append_of_mem hword
  have hpart : [word] <:+: cleanWords protectedWords text.toList := ⟨front, back, by simp [hwords]⟩
  simpa using cleanText_of_part protectedWords text [word] (List.cons_ne_nil _ _) hpart

end TextToSql.Normalize
