import Mathlib.Data.List.TakeDrop

/-!
# Runs and parts of a text

Where a scanner takes characters as long as they are accepted, what it takes from a longer text depends on the
character at the seam only. Where a text is cut at a character, its parts can be joined by another one.

* `span_append` : what is taken of accepted characters with more text behind them;
* `takeWhile_append` : what is taken of a longer text;
* `intercalate_splitOn_eq_map` : a text whose parts are joined by another character.
-/

namespace TextToSql.Text

/-- A run of accepted characters ends where a character is not accepted. -/
theorem span_append (p : Char → Bool) (s rest : List Char) (hs : ∀ c ∈ s, p c)
    (hrest : ∀ c ∈ rest.head?, p c = false) :
    (s ++ rest).takeWhile p = s ∧ (s ++ rest).dropWhile p = rest := by
  rw [List.takeWhile_append_of_pos hs, List.dropWhile_append_of_pos hs]
  cases rest with
  | nil => simp
  | cons c rest =>
      have hc : p c = false := hrest c rfl
      simp [hc]

/-- Accepted characters are taken from a longer text as from the text, if one that is not accepted stands in
the text, or none that is accepted right behind it. -/
theorem takeWhile_append (p : Char → Bool) (s rest : List Char)
    (h : (∃ c ∈ s, p c = false) ∨ ∀ c ∈ rest.head?, p c = false) :
    (s ++ rest).takeWhile p = s.takeWhile p ∧ (s ++ rest).dropWhile p = s.dropWhile p ++ rest := by
  induction s with
  | nil =>
      obtain ⟨c, hc, -⟩ | hrest := h
      · cases hc
      · simpa using span_append p [] rest (by simp) hrest
  | cons c s ih =>
      by_cases hc : p c
      · obtain ⟨htake, hdrop⟩ := ih (by simpa [hc] using h)
        simp [hc, htake, hdrop]
      · simp [hc]

/-- Joining the parts between one character by another one puts the other one in its place. -/
theorem intercalate_splitOn_eq_map (a b : Char) (cs : List Char) :
    [b].intercalate (cs.splitOn a) = cs.map fun c => if c = a then b else c := by
  induction cs with
  | nil => rfl
  | cons c cs ih =>
      obtain ⟨part, parts, hparts⟩ := List.exists_cons_of_ne_nil (List.splitOnP_ne_nil (· == a) cs)
      rw [List.splitOn, hparts] at ih
      rw [List.splitOn, List.splitOnP_cons_eq_if_modifyHead, hparts, List.map_cons, ← ih]
      by_cases hc : c = a
      · simp [hc, List.intercalate_cons_cons]
      · cases parts <;> simp [hc, List.intercalate_cons_cons]

end TextToSql.Text
