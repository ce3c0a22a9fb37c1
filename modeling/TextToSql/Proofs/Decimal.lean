import TextToSql.Intent.Filter
import TextToSql.Proofs.Text.Span

/-!
# Decimal numerals

A decimal numeral is a run of digits, or two runs of digits with a point between them. Which characters
are digits is left open, so that numerals in ASCII digits and in digits of any script are the same notion.

* `isNumeral_iff` : the test for numerals accepts exactly the decimal numerals in ASCII digits.
-/

namespace TextToSql

/-- One or more digits. -/
def IsDigits (digit : Char → Bool) (s : List Char) : Prop := s ≠ [] ∧ ∀ c ∈ s, digit c

/-- Digits, with at most one point between digits. -/
def IsDecimal (digit : Char → Bool) (s : List Char) : Prop :=
  ∃ whole, IsDigits digit whole ∧
    (s = whole ∨ ∃ fraction, IsDigits digit fraction ∧ s = whole ++ '.' :: fraction)

/-- Digits of one kind are digits of a wider kind. -/
theorem IsDigits.mono {digit digit' : Char → Bool} (h : ∀ c, digit c → digit' c) {s : List Char}
    (hs : IsDigits digit s) : IsDigits digit' s :=
  ⟨hs.1, fun c hc => h c (hs.2 c hc)⟩

/-- A numeral over some digits is a numeral over more digits. -/
theorem IsDecimal.mono {digit digit' : Char → Bool} (h : ∀ c, digit c → digit' c) {s : List Char}
    (hs : IsDecimal digit s) : IsDecimal digit' s := by
  obtain ⟨whole, hwhole, rfl | ⟨fraction, hfraction, rfl⟩⟩ := hs
  · exact ⟨s, hwhole.mono h, Or.inl rfl⟩
  · exact ⟨whole, hwhole.mono h, Or.inr ⟨fraction, hfraction.mono h, rfl⟩⟩

/-- Digits alone are a numeral. -/
theorem IsDigits.isDecimal {digit : Char → Bool} {s : List Char} (h : IsDigits digit s) :
    IsDecimal digit s :=
  ⟨s, h, Or.inl rfl⟩

namespace Intent

/-- What the test for digits accepts. -/
theorem isDigits_iff (s : List Char) :
    (!s.isEmpty && s.all Char.isDigit) = true ↔ IsDigits Char.isDigit s := by
  simp [IsDigits]

/-- Digits followed by nothing or by a point end there. -/
theorem span_point (whole rest : List Char) (hwhole : ∀ c ∈ whole, c.isDigit)
    (hrest : ∀ c ∈ rest.head?, c = '.') :
    (whole ++ rest).span (· ≠ '.') = (whole, rest) := by
  have hne : ∀ c ∈ whole, decide (c ≠ '.') := by
    intro c hc
    have hdigit := hwhole c hc
    rw [decide_eq_true_eq]
    rintro rfl
    exact absurd hdigit (by decide)
  obtain ⟨htake, hdrop⟩ := Text.span_append _ whole rest hne (fun c hc => by simp [hrest c hc])
  rw [List.span_eq_takeWhile_dropWhile, htake, hdrop]

/-- The test for numerals accepts exactly the decimal numerals in ASCII digits. -/
theorem isNumeral_iff (value : String) :
    isNumeral value ↔ IsDecimal Char.isDigit value.toList := by
  constructor
  · intro h
    unfold isNumeral at h
    split at h
    next whole rest hspan =>
    rw [List.span_eq_takeWhile_dropWhile, Prod.mk.injEq] at hspan
    have hvalue : value.toList = whole ++ rest := by
      rw [← hspan.1, ← hspan.2, List.takeWhile_append_dropWhile]
    rw [Bool.and_eq_true, isDigits_iff] at h
    obtain ⟨hwhole, hrest⟩ := h
    refine ⟨whole, hwhole, ?_⟩
    -- what is left behind the whole part is nothing, or starts at the first point
    cases rest with
    | nil => exact Or.inl (by simpa using hvalue)
    | cons c fraction =>
        have hpoint : c = '.' := by
          have := List.head?_dropWhile_not (p := fun c => decide (c ≠ '.')) value.toList
          rw [hspan.2] at this
          simpa using this
        exact Or.inr ⟨fraction, (isDigits_iff fraction).mp hrest, by rw [hvalue, hpoint]⟩
  · rintro ⟨whole, hwhole, heq | ⟨fraction, hfraction, heq⟩⟩
    · have hspan := span_point whole [] hwhole.2 (by simp)
      unfold isNumeral
      rw [heq, ← whole.append_nil, hspan]
      simpa using (isDigits_iff whole).mpr hwhole
    · have hspan := span_point whole ('.' :: fraction) hwhole.2 (by simp)
      unfold isNumeral
      rw [heq, hspan]
      exact Bool.and_eq_true_iff.mpr
        ⟨(isDigits_iff whole).mpr hwhole, (isDigits_iff fraction).mpr hfraction⟩

end Intent

end TextToSql
