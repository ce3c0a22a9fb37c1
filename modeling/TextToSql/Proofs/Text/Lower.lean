import Mathlib
import TextToSql.Proofs.Text.Words
import TextToSql.Text.Lower
import TextToSql.Unicode.WordChar

/-!
# Lower case and white space

White space is its own lower case and ends a word, so that the lower case of a text is found part by
part: no sigma looks across it. In ASCII the lower case goes character by character. Plain words, of
small letters, digits and underscores, are what is meant in any letter case.

* `lower_append_white` : the lower case of two parts around a white space;
* `lower_of_ascii` : the lower case of a text in ASCII;
* `IsPlain.lower_written` : a plain word is the lower case of itself in any letter case.
-/

namespace TextToSql.Text

open Unicode

/-! ## White space -/

/-- The code points of white space. -/
def whiteCodes : List Nat :=
  [0x20, 0x85, 0xA0, 0x1680, 0x2028, 0x2029, 0x202F, 0x205F, 0x3000] ++ List.range' 0x09 5
    ++ List.range' 0x2000 11

/-- A white space has one of these code points. -/
theorem mem_whiteCodes (c : Char) (h : isWhite c) : c.toNat ∈ whiteCodes := by
  simp only [isWhite, Bool.or_eq_true, Bool.and_eq_true, decide_eq_true_eq] at h
  simp only [whiteCodes, List.mem_append, List.mem_cons, List.not_mem_nil, or_false,
    List.mem_range'_1]
  omega

/-- What holds of all code points of white space holds of white space. -/
theorem isWhite_elim {p : Char → Prop} (hp : ∀ n ∈ whiteCodes, p (Char.ofNat n)) (c : Char)
    (h : isWhite c) : p c := by
  have hc := hp c.toNat (mem_whiteCodes c h)
  rwa [Char.ofNat_toNat] at hc

/-- A sigma does not look across white space: it has no case, and it is not looked through. -/
theorem startsCased_append_white (s t : List Char) (c : Char) (hc : isWhite c) :
    startsCased (s ++ c :: t) = startsCased s := by
  have hplain : isCaseIgnorable c = false ∧ isCased c = false :=
    isWhite_elim (p := fun c => isCaseIgnorable c = false ∧ isCased c = false) (by decide +kernel) c hc
  induction s with
  | nil => simp [startsCased, hplain]
  | cons d s ih =>
      by_cases hd : isCaseIgnorable d
      · simpa [startsCased, hd] using ih
      · simp [startsCased, hd]

/-- White space is its own lower case. -/
theorem lowerAt_white (before after : List Char) (c : Char) (hc : isWhite c) :
    lowerAt before c after = [c] := by
  have hplain : c.toNat ≠ 0x3A3 ∧ c.toNat ≠ 0x130 ∧ lowerChar c = c :=
    isWhite_elim (p := fun c => c.toNat ≠ 0x3A3 ∧ c.toNat ≠ 0x130 ∧ lowerChar c = c)
      (by decide +kernel) c hc
  rw [lowerAt, if_neg hplain.1, if_neg hplain.2.1, hplain.2.2]

/-- What stands beyond a white space before a text does not change its lower case. -/
theorem lowerAfter_append_white (before before' s : List Char) (c : Char) (hc : isWhite c) :
    lowerAfter (before ++ c :: before') s = lowerAfter before s := by
  induction s generalizing before with
  | nil => rfl
  | cons d s ih =>
      rw [lowerAfter, lowerAfter, ← List.cons_append, ih, lowerAt, lowerAt, isFinalSigma,
        isFinalSigma, startsCased_append_white before before' c hc]

/-- The lower case of a text that white space follows, and of what comes behind that. -/
theorem lowerAfter_cut (before s t : List Char) (c : Char) (hc : isWhite c) :
    lowerAfter before (s ++ c :: t) = lowerAfter before s ++ c :: lower t := by
  induction s generalizing before with
  | nil =>
      show lowerAt before c t ++ lowerAfter (c :: before) t = c :: lower t
      rw [lowerAt_white before t c hc, List.singleton_append, lower]
      congr 1
      exact lowerAfter_append_white [] before t c hc
  | cons d s ih =>
      rw [List.cons_append, lowerAfter, lowerAfter, ih, List.append_assoc, lowerAt, lowerAt,
        isFinalSigma, isFinalSigma, startsCased_append_white s t c hc]

/-- **The lower case around a white space** is that of the part before it and of the part after it. -/
theorem lower_append_white (s t : List Char) (c : Char) (hc : isWhite c) :
    lower (s ++ c :: t) = lower s ++ c :: lower t :=
  lowerAfter_cut [] s t c hc

/-! ## ASCII -/

/-- An ASCII character goes into lower case by itself. -/
theorem lowerAt_ascii (before after : List Char) (c : Char) (hc : c.toNat < 0x80) :
    lowerAt before c after = [c.toLower] := by
  have hsigma : c.toNat ≠ 0x3A3 := by omega
  have hdotted : c.toNat ≠ 0x130 := by omega
  rw [lowerAt, if_neg hsigma, if_neg hdotted, lowerChar, if_pos hc]

/-- The lower case of a text in ASCII goes character by character. -/
theorem lower_of_ascii (s : List Char) (hs : ∀ c ∈ s, c.toNat < 0x80) :
    lower s = s.map Char.toLower := by
  suffices h : ∀ before, lowerAfter before s = s.map Char.toLower by exact h []
  induction s with
  | nil => intro before; rfl
  | cons c s ih =>
      obtain ⟨hc, hs⟩ := List.forall_mem_cons.mp hs
      intro before
      rw [lowerAfter, lowerAt_ascii before s c hc, ih hs, List.map_cons, List.singleton_append]

/-! ## Plain words -/

/-- Whether a character is a small letter, a digit or an underscore. -/
def isPlainChar (c : Char) : Bool := c.isLower || c.isDigit || c = '_'

/-- A text of small letters, digits and underscores. -/
def IsPlain (s : List Char) : Prop := ∀ c ∈ s, isPlainChar c

instance (s : List Char) : Decidable (IsPlain s) :=
  decidable_of_iff (s.all isPlainChar) List.all_eq_true

/-- A plain character is in ASCII. -/
theorem lt_of_isPlainChar (c : Char) (h : isPlainChar c) : c.toNat < 0x80 := by
  have hz : 'z'.val ≤ 0x7F := by decide
  have h9 : '9'.val ≤ 0x7F := by decide
  simp only [isPlainChar, Char.isLower, Char.isDigit, Bool.or_eq_true, Bool.and_eq_true,
    decide_eq_true_eq] at h
  rcases h with (⟨-, h⟩ | ⟨-, h⟩) | rfl
  · exact Nat.lt_succ_of_le (UInt32.le_iff_toNat_le.mp (UInt32.le_trans h hz))
  · exact Nat.lt_succ_of_le (UInt32.le_iff_toNat_le.mp (UInt32.le_trans h h9))
  · decide

/-- Digits are plain. -/
theorem isPlainChar_of_isDigit (c : Char) (h : c.isDigit) : isPlainChar c := by
  simp [isPlainChar, h]

/-- Small letters are plain. -/
theorem isPlainChar_of_isLower (c : Char) (h : c.isLower) : isPlainChar c := by
  simp [isPlainChar, h]

/-- What holds of the plain ones among the ASCII characters holds of plain characters. -/
theorem isPlainChar_elim {p : Char → Prop}
    (hp : ∀ n < 0x80, isPlainChar (Char.ofNat n) → p (Char.ofNat n)) (c : Char) (h : isPlainChar c) :
    p c := by
  have hc := hp c.toNat (lt_of_isPlainChar c h)
  rw [Char.ofNat_toNat] at hc
  exact hc h

/-- Plain characters are word characters. -/
theorem isWordChar_of_isPlainChar (c : Char) (h : isPlainChar c) : isWordChar c :=
  isPlainChar_elim (p := fun c => isWordChar c) (by decide +kernel) c h

/-- A character whose small form is plain is in ASCII. -/
theorem lt_of_isPlainChar_toLower (c : Char) (h : isPlainChar c.toLower) : c.toNat < 0x80 := by
  by_cases hupper : c.isUpper
  · simp only [Char.isUpper, decide_eq_true_eq] at hupper
    have hz : 'Z'.val ≤ 0x7F := by decide
    exact Nat.lt_succ_of_le (UInt32.le_iff_toNat_le.mp (UInt32.le_trans hupper.2 hz))
  · rw [Char.toLower_eq_of_not_isUpper hupper] at h
    exact lt_of_isPlainChar c h

/-- A character whose small form is plain is no white space. -/
theorem isWhite_eq_false_of_isPlainChar_toLower (c : Char) (h : isPlainChar c.toLower) : isWhite c = false := by
  have hwhite : ∀ n < 0x80, isPlainChar (Char.ofNat n).toLower → isWhite (Char.ofNat n) = false := by
    decide +kernel
  have hc := hwhite c.toNat (lt_of_isPlainChar_toLower c h)
  rw [Char.ofNat_toNat] at hc
  exact hc h

/-- A plain word has no white space, in whatever letter case it is written. -/
theorem IsPlain.whiteFree_written {s : List Char} (hs : IsPlain (s.map Char.toLower)) :
    WhiteFree s := by
  intro c hc
  exact isWhite_eq_false_of_isPlainChar_toLower c (hs _ (List.mem_map_of_mem hc))

/-- **A plain word is the lower case of itself** in any letter case. -/
theorem IsPlain.lower_written {s : List Char} (hs : IsPlain (s.map Char.toLower)) :
    lower s = s.map Char.toLower := by
  refine lower_of_ascii s ?_
  intro c hc
  exact lt_of_isPlainChar_toLower c (hs _ (List.mem_map_of_mem hc))

/-- The small letters of a plain word are its letters. -/
theorem IsPlain.map_toLower {s : List Char} (hs : IsPlain s) : s.map Char.toLower = s := by
  have hsmall : ∀ c, isPlainChar c → c.toLower = c := isPlainChar_elim (by decide +kernel)
  calc s.map Char.toLower = s.map id := List.map_congr_left fun c hc => hsmall c (hs c hc)
    _ = s := List.map_id s

/-- A plain word has no white space. -/
theorem IsPlain.whiteFree {s : List Char} (hs : IsPlain s) : WhiteFree s := by
  refine IsPlain.whiteFree_written ?_
  rwa [hs.map_toLower]

/-- A plain word is its own lower case. -/
theorem IsPlain.lower_eq {s : List Char} (hs : IsPlain s) : lower s = s := by
  rw [IsPlain.lower_written (by rwa [hs.map_toLower]), hs.map_toLower]

/-- A text that is made of plain words separated by spaces is its own lower case. -/
theorem lower_intercalate (pieces : List (List Char)) (h : ∀ piece ∈ pieces, IsPlain piece) :
    lower ([' '].intercalate pieces) = [' '].intercalate pieces := by
  induction pieces with
  | nil => rfl
  | cons piece pieces ih =>
      obtain ⟨hpiece, hpieces⟩ := List.forall_mem_cons.mp h
      cases pieces with
      | nil => rw [List.intercalate_singleton, hpiece.lower_eq]
      | cons next pieces =>
          rw [List.intercalate_cons_cons, List.append_assoc, List.singleton_append,
            lower_append_white _ _ ' ' (by decide), hpiece.lower_eq, ih hpieces]

end TextToSql.Text
