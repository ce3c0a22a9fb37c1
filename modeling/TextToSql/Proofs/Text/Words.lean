import TextToSql.Text.Basic

/-!
# Words and white space

A white space cuts a text in two, and the words of the text are the words of the two parts. So whatever
respects this cut can be proved of a text by `cut_induction`: of texts without white space, and of two
parts with a white space between them.

* `words_append_white` : the words around a white space;
* `words_of_whiteFree` : a text without white space is its only word;
* `exists_of_words_eq_cons` : where the first word of a text stands;
* `words_intercalate` : the words of a text that is made of words;
* `cut_induction` : induction on the white space in a text.
-/

namespace TextToSql.Text

open Unicode

/-- A text without white space. -/
def WhiteFree (s : List Char) : Prop := ∀ c ∈ s, isWhite c = false

/-- White space cuts a text in two. -/
theorem splitWhite_append_white (s t : List Char) (c : Char) (hc : isWhite c) :
    splitWhite (s ++ c :: t) = splitWhite s ++ splitWhite t := by
  induction s with
  | nil =>
      obtain ⟨piece, pieces, ht⟩ := List.exists_cons_of_ne_nil (splitWhite_ne_nil t)
      simp [splitWhite, ht, hc]
  | cons d s ih =>
      obtain ⟨piece, pieces, hs⟩ := List.exists_cons_of_ne_nil (splitWhite_ne_nil s)
      rw [List.cons_append, splitWhite, splitWhite, ih, hs]
      by_cases hd : isWhite d
      · simp [hd]
      · simp [hd]

/-- A text without white space is in one piece. -/
theorem splitWhite_of_whiteFree (s : List Char) (h : WhiteFree s) : splitWhite s = [s] := by
  induction s with
  | nil => rfl
  | cons c s ih =>
      obtain ⟨hc, hs⟩ := List.forall_mem_cons.mp h
      rw [splitWhite, ih hs]
      simp [hc]

/-- **The words around a white space** are those before it and those after it. -/
theorem words_append_white (s t : List Char) (c : Char) (hc : isWhite c) :
    words (s ++ c :: t) = words s ++ words t := by
  rw [words, splitWhite_append_white s t c hc, List.filter_append, words, words]

/-- A text without white space is its only word. -/
theorem words_of_whiteFree (s : List Char) (h : WhiteFree s) (hne : s ≠ []) : words s = [s] := by
  rw [words, splitWhite_of_whiteFree s h]
  simp [hne]

/-- A text is white-free up to its first white space, if it has any. -/
theorem exists_whiteFree_append (s : List Char) :
    ∃ w rest, s = w ++ rest ∧ WhiteFree w ∧ ∀ c ∈ rest.head?, isWhite c := by
  refine ⟨s.takeWhile (!isWhite ·), s.dropWhile (!isWhite ·), List.takeWhile_append_dropWhile.symm, ?_, ?_⟩
  · intro c hc
    simpa using List.all_eq_true.mp List.all_takeWhile c hc
  · intro c hc
    simpa [Option.mem_def.mp hc] using List.head?_dropWhile_not (!isWhite ·) s

/-- **The first word of a text** stands behind nothing but white space, and goes on up to white space. -/
theorem exists_of_words_eq_cons (s w : List Char) (ws : List (List Char)) (h : words s = w :: ws) :
    ∃ white rest, s = white ++ (w ++ rest) ∧ (∀ c ∈ white, isWhite c) ∧ ∀ c ∈ rest.head?, isWhite c := by
  induction s with
  | nil => cases h
  | cons c s ih =>
      by_cases hc : isWhite c
      · have hrest : words (c :: s) = words s := words_append_white [] s c hc
        rw [hrest] at h
        obtain ⟨white, rest, rfl, hwhite, hend⟩ := ih h
        exact ⟨c :: white, rest, rfl, List.forall_mem_cons.mpr ⟨hc, hwhite⟩, hend⟩
      · obtain ⟨first, rest, hs, hfree, hend⟩ := exists_whiteFree_append (c :: s)
        have hne : first ≠ [] := by
          rintro rfl
          exact hc (hend c (by rw [← List.nil_append rest, ← hs]; rfl))
        have hfirst : words (c :: s) = first :: words rest := by
          rw [hs]
          cases rest with
          | nil =>
              rw [List.append_nil, words_of_whiteFree first hfree hne]
              rfl
          | cons d rest =>
              have hd := hend d rfl
              have hrest : words (d :: rest) = words rest := words_append_white [] rest d hd
              rw [words_append_white first rest d hd, words_of_whiteFree first hfree hne, hrest]
              rfl
        rw [hfirst] at h
        obtain rfl := (List.cons.inj h).1
        exact ⟨[], rest, hs, List.forall_mem_nil _, hend⟩

/-- Two groups of pieces are separated as their last and first pieces are. -/
theorem intercalate_append {α : Type} (separator : List α) (xs ys : List (List α)) (hxs : xs ≠ [])
    (hys : ys ≠ []) :
    separator.intercalate (xs ++ ys)
      = separator.intercalate xs ++ separator ++ separator.intercalate ys := by
  induction xs with
  | nil => exact absurd rfl hxs
  | cons x xs ih =>
      by_cases hnil : xs = []
      · rw [hnil, List.singleton_append, List.intercalate_cons_of_ne_nil hys,
          List.intercalate_singleton]
      · rw [List.cons_append,
          List.intercalate_cons_of_ne_nil (List.append_ne_nil_of_left_ne_nil hnil ys), ih hnil,
          List.intercalate_cons_of_ne_nil hnil]
        simp only [List.append_assoc]

/-- **The words of a text that is made of words** separated by spaces are these words. -/
theorem words_intercalate (pieces : List (List Char))
    (h : ∀ piece ∈ pieces, piece ≠ [] ∧ WhiteFree piece) :
    words ([' '].intercalate pieces) = pieces := by
  induction pieces with
  | nil => rfl
  | cons piece pieces ih =>
      obtain ⟨⟨hne, hfree⟩, hpieces⟩ := List.forall_mem_cons.mp h
      cases pieces with
      | nil => rw [List.intercalate_singleton, words_of_whiteFree piece hfree hne]
      | cons next pieces =>
          rw [List.intercalate_cons_cons, List.append_assoc, List.singleton_append,
            words_append_white _ _ ' ' (by decide), words_of_whiteFree piece hfree hne, ih hpieces,
            List.singleton_append]

/-- Induction on the white space in a text. -/
@[elab_as_elim]
theorem cut_induction {p : List Char → Prop} (s : List Char) (whiteFree : ∀ s, WhiteFree s → p s)
    (cut : ∀ s c t, isWhite c → p s → p t → p (s ++ c :: t)) : p s := by
  -- the part before the next white space is gathered in front
  suffices h : ∀ before, WhiteFree before → p (before ++ s) by
    exact h [] (by simp [WhiteFree])
  induction s with
  | nil =>
      intro before hbefore
      rw [List.append_nil]
      exact whiteFree before hbefore
  | cons c s ih =>
      intro before hbefore
      by_cases hc : isWhite c
      · exact cut before c s hc (whiteFree before hbefore) (ih [] (by simp [WhiteFree]))
      · have hmore : WhiteFree (before ++ [c]) := by
          intro d hd
          rcases List.mem_append.mp hd with hd | hd
          · exact hbefore d hd
          · obtain rfl := List.mem_singleton.mp hd
            simpa using hc
        have hp := ih (before ++ [c]) hmore
        rwa [List.append_assoc, List.singleton_append] at hp

end TextToSql.Text
