import TextToSql.Proofs.Text.Lower

/-!
# Texts in lower case

Lower case is final: no character that it gives has a lower case of its own, and it gives neither a sigma
nor a dotted I, the two letters whose lower case hangs on their neighbours or is more than one character.

* `isLowered_lowerChar` : the lower case of a character is its own lower case;
* `lowered_lower` : the lower case of a text is in lower case;
* `Lowered.lower_eq` : a text in lower case is its own lower case.
-/

namespace TextToSql

namespace Unicode

/-- A character that is its own lower case wherever it stands. -/
def IsLowered (c : Char) : Prop := c.toNat ≠ 0x3A3 ∧ c.toNat ≠ 0x130 ∧ lowerChar c = c

instance (c : Char) : Decidable (IsLowered c) :=
  inferInstanceAs (Decidable (c.toNat ≠ 0x3A3 ∧ c.toNat ≠ 0x130 ∧ lowerChar c = c))

/-- What the entries of the lower-case mapping lead to has no lower case of its own. -/
theorem isLowered_of_mem_lowercaseEntries : ∀ entry ∈ lowercaseEntries,
    ∀ d ≤ entry.2.1 - entry.1, d % entry.2.2.1 = 0 → IsLowered (Char.ofNat (entry.2.2.2 + d)) := by
  decide +kernel

/-- **The lower case of a character is its own lower case.** -/
theorem isLowered_lowerChar (c : Char) (hsigma : c.toNat ≠ 0x3A3) (hdotted : c.toNat ≠ 0x130) :
    IsLowered (lowerChar c) := by
  have hascii : ∀ n < 0x80, IsLowered (Char.ofNat n).toLower := by decide +kernel
  -- a character that the mapping leaves alone
  have hstays : lowerChar c = c → IsLowered (lowerChar c) := fun h => by
    rw [h]
    exact ⟨hsigma, hdotted, h⟩
  by_cases hc : c.toNat < 0x80
  · have hlower := hascii c.toNat hc
    rw [Char.ofNat_toNat] at hlower
    rwa [lowerChar, if_pos hc]
  · have hshift : lowerChar c = lowercaseTree.shift c := if_neg hc
    unfold RangeTree.shift at hshift
    split at hshift
    · next lo step target hfind =>
        obtain ⟨hi, hmem, hlo, hhi⟩ := RangeTree.find?_entries _ _ _ _ hfind
        rw [lowercaseTree, RangeTree.ofShifts, RangeTree.entries_ofEntries] at hmem
        split at hshift
        · next hstep =>
            rw [hshift]
            refine isLowered_of_mem_lowercaseEntries _ hmem _ ?_ hstep
            dsimp only
            omega
        · exact hstays hshift
    · exact hstays hshift

end Unicode

namespace Text

open Unicode

/-- A text whose characters are their own lower case wherever they stand. -/
def Lowered (s : List Char) : Prop := ∀ c ∈ s, IsLowered c

/-- What a character becomes in lower case, between whatever contexts, is in lower case. -/
theorem lowered_lowerAt (before after : List Char) (c : Char) : Lowered (lowerAt before c after) := by
  have hsigmas : IsLowered '\u03C2' ∧ IsLowered '\u03C3' := by decide +kernel
  have hdots : IsLowered 'i' ∧ IsLowered '\u0307' := by decide +kernel
  unfold lowerAt
  split
  · split
    · exact List.forall_mem_singleton.mpr hsigmas.1
    · exact List.forall_mem_singleton.mpr hsigmas.2
  · next hsigma =>
      split
      · exact List.forall_mem_cons.mpr ⟨hdots.1, List.forall_mem_singleton.mpr hdots.2⟩
      · next hdotted =>
          intro d hd
          obtain rfl := List.mem_singleton.mp hd
          exact isLowered_lowerChar c hsigma hdotted

/-- **The lower case of a text is in lower case.** -/
theorem lowered_lower (s : List Char) : Lowered (lower s) := by
  suffices h : ∀ before, Lowered (lowerAfter before s) by exact h []
  induction s with
  | nil => exact fun before c hc => absurd hc List.not_mem_nil
  | cons c s ih =>
      intro before d hd
      rcases List.mem_append.mp hd with hd | hd
      · exact lowered_lowerAt before s c d hd
      · exact ih (c :: before) d hd

/-- **A text in lower case is its own lower case.** -/
theorem Lowered.lower_eq {s : List Char} (hs : Lowered s) : lower s = s := by
  suffices h : ∀ before, lowerAfter before s = s by exact h []
  induction s with
  | nil => intro before; rfl
  | cons c s ih =>
      obtain ⟨⟨hsigma, hdotted, hc⟩, hs⟩ := List.forall_mem_cons.mp hs
      intro before
      rw [lowerAfter, ih hs, lowerAt, if_neg hsigma, if_neg hdotted, hc, List.singleton_append]

end Text

end TextToSql
