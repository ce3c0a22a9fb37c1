import TextToSql.Proofs.Normalize

/-!
# Plurals of protected words

A plural is reduced by the letters that it ends in, without a look at the singulars that are protected. So the
plural of a protected word that is formed with an `s` goes back to the word, unless the word ends in letters
before which the `s` means something else: `menus` looks like `status` and stays, `movies` like `cities` and
becomes `movy`, and `caches` like `matches` and becomes `cach`.

* `singular?_plural` : the singular of a word with an `s` behind it;
* `HasPlural.baseForm_eq_iff` : when the base form of a plural is the word;
* `cleanText_plural` : what becomes of the plural of a protected word anywhere in a text.
-/

namespace TextToSql.Normalize

open Unicode Text

/-- The endings of the words that their plurals are not reduced to, but for the `s`. -/
def irregularEndings : List String := ["u", "i", "ie", "che", "she", "xe", "sse"]

/-- A protected word of three or more small letters whose plural, with an `s` behind the word, is neither
protected nor a stopword. -/
structure HasPlural (protectedWords : List String) (w : String) : Prop where
  letters : w.toList.all Char.isLower
  length : 3 ≤ w.length
  noPlural : ¬ "s".toList <:+ w.toList
  isProtected : w ∈ protectedWords
  unprotected : w ++ "s" ∉ protectedWords
  kept : w ++ "s" ∉ stopwords

/-! ## Words with an s behind them -/

/-- A word with an `s` behind it ends in some letters and an `s` where the word ends in the letters. -/
theorem endsIn_plural (w : List Char) (ending : String) :
    endsIn (w ++ ['s']) (ending ++ "s") = endsIn w ending := by
  have hs : "s".toList = ['s'] := rfl
  rw [Bool.eq_iff_iff, endsIn, endsIn, List.isSuffixOf_iff_suffix, List.isSuffixOf_iff_suffix,
    String.toList_append, hs, List.suffix_append_self_iff]

/-- A word with an `s` behind it loses one letter less of the word than it loses. -/
theorem withoutLast_plural (n : Nat) (w : List Char) :
    withoutLast (n + 1) (w ++ ['s']) = withoutLast n w := by
  rw [withoutLast, withoutLast, List.length_append, List.length_singleton, Nat.add_sub_add_right,
    List.take_append_of_le_length (Nat.sub_le _ _)]

/-- Small letters are letters. -/
theorem isAlphabetic_of_isLower (c : Char) (h : c.isLower) : isAlphabetic c :=
  isPlainChar_elim (p := fun c => c.isLower → isAlphabetic c) (by decide +kernel) c
    (isPlainChar_of_isLower c h) h

section Plural

variable {w : List Char} (hletters : ∀ c ∈ w, c.isLower) (hlength : 3 ≤ w.length)
  (hs : endsIn w "s" = false)
include hletters hlength hs

/-- **The singular of a word with an `s` behind it.** -/
theorem singular?_plural :
    singular? (w ++ ['s'])
      = if endsIn w "u" || endsIn w "i" then none
        else if endsIn w "ie" then some (withoutLast 2 w ++ ['y'])
        else if endsIn w "che" || endsIn w "she" || endsIn w "xe" || endsIn w "sse" then
          some (withoutLast 1 w)
        else some w := by
  have hlong : ¬ (byteLength (w ++ ['s']) ≤ 3 || !(w ++ ['s']).all isAlphabetic) := by
    have hbytes := length_le_byteLength (w ++ ['s'])
    have halphabetic : (w ++ ['s']).all isAlphabetic := by
      rw [List.all_eq_true]
      intro c hc
      rcases List.mem_append.mp hc with hc | hc
      · exact isAlphabetic_of_isLower c (hletters c hc)
      · obtain rfl := List.mem_singleton.mp hc
        decide +kernel
    rw [List.length_append, List.length_singleton] at hbytes
    simp only [halphabetic, Bool.not_true, Bool.or_false, decide_eq_true_eq]
    omega
  rw [singular?, if_neg hlong, withoutLast_plural 2, withoutLast_plural 1, withoutLast_plural 0,
    show endsIn (w ++ ['s']) "ss" = endsIn w "s" from endsIn_plural w "s",
    show endsIn (w ++ ['s']) "us" = endsIn w "u" from endsIn_plural w "u",
    show endsIn (w ++ ['s']) "is" = endsIn w "i" from endsIn_plural w "i",
    show endsIn (w ++ ['s']) "ies" = endsIn w "ie" from endsIn_plural w "ie",
    show endsIn (w ++ ['s']) "ches" = endsIn w "che" from endsIn_plural w "che",
    show endsIn (w ++ ['s']) "shes" = endsIn w "she" from endsIn_plural w "she",
    show endsIn (w ++ ['s']) "xes" = endsIn w "xe" from endsIn_plural w "xe",
    show endsIn (w ++ ['s']) "sses" = endsIn w "sse" from endsIn_plural w "sse",
    show endsIn (w ++ ['s']) "s" = endsIn w "" from endsIn_plural w "", hs]
  simp [endsIn, withoutLast]

/-- The singular is the word where the word has none of the irregular endings. -/
theorem singular?_plural_eq_some_iff :
    singular? (w ++ ['s']) = some w ↔ ∀ ending ∈ irregularEndings, endsIn w ending = false := by
  -- each other outcome has one letter less than the word
  have hes : withoutLast 1 w ≠ w := by
    intro heq
    have hlen := congrArg List.length heq
    rw [withoutLast, List.length_take] at hlen
    omega
  have hy : withoutLast 2 w ++ ['y'] ≠ w := by
    intro heq
    have hlen := congrArg List.length heq
    rw [List.length_append, List.length_singleton, withoutLast, List.length_take] at hlen
    omega
  rw [singular?_plural hletters hlength hs]
  simp only [irregularEndings, List.forall_mem_cons, List.not_mem_nil, false_imp_iff, implies_true,
    and_true]
  split
  · grind
  · split
    · grind
    · split <;> grind

end Plural

section Protected

variable {protectedWords : List String} {w : String} (h : HasPlural protectedWords w)
include h

/-- The plural of a protected word is plain. -/
theorem HasPlural.isPlain : IsPlain (w ++ "s").toList := by
  intro c hc
  rw [String.toList_append] at hc
  rcases List.mem_append.mp hc with hc | hc
  · exact isPlainChar_of_isLower c (List.all_eq_true.mp h.letters c hc)
  · obtain rfl := List.mem_singleton.mp hc
    decide

/-- **The base form of the plural of a protected word** is the word exactly where the word has none of the
irregular endings. -/
theorem HasPlural.baseForm_eq_iff :
    baseForm protectedWords (w ++ "s").toList = w.toList
      ↔ ∀ ending ∈ irregularEndings, ¬ ending.toList <:+ w.toList := by
  have hplural : (w ++ "s").toList = w.toList ++ ['s'] := String.toList_append
  have hlength : 3 ≤ w.toList.length := by
    rw [String.length_toList]
    exact h.length
  have hs : endsIn w.toList "s" = false := by
    rw [← Bool.not_eq_true, endsIn, List.isSuffixOf_iff_suffix]
    exact h.noPlural
  have hne : w.toList ++ ['s'] ≠ w.toList := by simp
  have hunprotected : ¬ protectedWords.contains (String.ofList (w.toList ++ ['s'])) := by
    rw [← hplural, String.ofList_toList, List.contains_iff_mem]
    exact h.unprotected
  have hstem : baseForm protectedWords (w.toList ++ ['s']) = w.toList
      ↔ singular? (w.toList ++ ['s']) = some w.toList := by
    rw [baseForm, if_neg hunprotected]
    cases singular? (w.toList ++ ['s']) with
    | none => simp
    | some stem =>
        dsimp only
        rw [Option.some.injEq]
        constructor
        · intro heq
          split at heq
          · exact absurd heq hne
          · exact heq
        -- a plural that is kept as such goes back to a protected word, too
        · rintro rfl
          rw [String.ofList_toList, List.contains_iff_mem.mpr h.isProtected, Bool.not_true, Bool.and_false,
            if_neg Bool.false_ne_true]
  have hending : ∀ ending, endsIn w.toList ending = false ↔ ¬ ending.toList <:+ w.toList := by
    intro ending
    rw [← Bool.not_eq_true, endsIn, List.isSuffixOf_iff_suffix]
  rw [hplural, hstem, singular?_plural_eq_some_iff (List.all_eq_true.mp h.letters) hlength hs]
  simp only [hending]

end Protected

/-! ## Plurals in a text -/

/-- **The plural of a protected word in a text.** Wherever the plural of a protected word, in whatever letter
case, stands between white space or ends of a text, the normal form has one and the same word in its place
between the normal forms of what stands before and behind it. That is the protected word itself exactly if it
has none of the irregular endings. -/
theorem cleanText_plural (protectedWords : List String) (w : String) (h : HasPlural protectedWords w) :
    ∃ form,
      (∀ before written after : String, written.toLower = w ++ "s" →
          (∀ c ∈ before.toList.getLast?, isWhite c) → (∀ c ∈ after.toList.head?, isWhite c) →
          wordsOf (cleanText protectedWords (before ++ written ++ after))
            = wordsOf (cleanText protectedWords before) ++ [form]
                ++ wordsOf (cleanText protectedWords after))
        ∧ (form = w ↔ ∀ ending ∈ irregularEndings, ¬ ending.toList <:+ w.toList) := by
  refine ⟨String.ofList (baseForm protectedWords (w ++ "s").toList), ?_, ?_⟩
  · intro before written after hwritten hbefore hafter
    have hsmall : written.toList.map Char.toLower = (w ++ "s").toList := by
      rw [← hwritten]
      simp [String.toLower]
    have hne : written.toList ≠ [] := by
      intro hnil
      rw [hnil] at hsmall
      simp at hsmall
    have hclean : cleanWords protectedWords written.toList
        = [baseForm protectedWords (w ++ "s").toList] := by
      rw [cleanWords_of_plain protectedWords _ hne (by rw [hsmall]; exact h.isPlain), hsmall]
      simp [h.kept]
    simp only [wordsOf, words_cleanText, String.toList_append, cleanWords_delimited protectedWords _ _ _
      hbefore hafter]
    rw [← String.toList_append, hclean]
    simp
  · rw [← h.baseForm_eq_iff, ← String.toList_inj, String.toList_ofList]

/-- The plural of a protected word is reduced to it although it is one that would be kept as such. -/
theorem cleanText_plural_customers :
    HasPlural ["name", "customer"] "customer"
      ∧ wordsOf (cleanText ["name", "customer"] ("The names of\t" ++ "CUSTOMERS" ++ " , please"))
          = ["name", "of", "customer"] := by
  have hplural : HasPlural ["name", "customer"] "customer" :=
    ⟨by decide, by decide, by decide, by decide, by decide, by decide +kernel⟩
  obtain ⟨form, hforms, hform⟩ := cleanText_plural _ _ hplural
  obtain rfl := hform.mpr (by decide)
  have hbefore : ∀ c ∈ "The names of\t".toList.getLast?, isWhite c := by
    intro c hc
    cases hc
    decide
  have hafter : ∀ c ∈ " , please".toList.head?, isWhite c := by
    intro c hc
    cases hc
    decide
  have htext := hforms "The names of\t" "CUSTOMERS" " , please" (by decide +kernel) hbefore hafter
  exact ⟨hplural, htext.trans (by decide +kernel)⟩

/-- A movie is protected, and its plural becomes another word; a menu is protected, and its plural stays. -/
theorem not_reduced_movies :
    HasPlural ["movie"] "movie" ∧ cleanText ["movie"] "list movies" = "list movy"
      ∧ HasPlural ["menu"] "menu" ∧ cleanText ["menu"] "list menus" = "list menus" :=
  ⟨⟨by decide, by decide, by decide, by decide, by decide, by decide +kernel⟩, by decide +kernel,
    ⟨by decide, by decide, by decide, by decide, by decide, by decide +kernel⟩, by decide +kernel⟩

end TextToSql.Normalize
