import Mathlib
import TextToSql.Unicode.CaseFold

/-!
# What case folding leaves alone

* `eq_of_foldChar_eq` : a character below the letters is the folding of itself only;
* `lt_or_eq_of_foldChar_lt` : outside ASCII, only the long s and the Kelvin sign fold into ASCII.
-/

namespace TextToSql.Unicode

/-- A code point above a character does not stand for it, be it valid or not. -/
theorem ofNat_ne_of_lt (c : Char) (n : Nat) (h : c.toNat < n) (hc : 0 < c.toNat) :
    Char.ofNat n ≠ c := by
  rintro rfl
  rw [Char.toNat_ofNat] at h hc
  split at h
  · exact absurd h (Nat.lt_irrefl n)
  · next hinvalid =>
      rw [if_neg hinvalid] at hc
      exact absurd hc (Nat.lt_irrefl 0)

/-- Below the letters, a character is the folding of itself only: a folding that changes a character
gives a letter. -/
theorem eq_of_foldChar_eq (c d : Char) (hd : d.toNat < 0x41) (hpos : 0 < d.toNat)
    (h : foldChar c = d) : c = d := by
  have htargets : ∀ entry ∈ foldEntries, 0x41 ≤ entry.2.2.2 := by decide +kernel
  have hascii : ∀ n < 0x80, (Char.ofNat n).toLower.toNat < 0x41 →
      (Char.ofNat n).toLower = Char.ofNat n := by decide
  unfold foldChar at h
  split at h
  · next hc =>
      have hlower := hascii c.toNat hc
      rw [Char.ofNat_toNat, h] at hlower
      exact (hlower hd).symm
  -- the tables lead to letters only, or to a code point that stands for no character
  · unfold RangeTree.shift at h
    split at h
    · next lo step target hfind =>
        obtain ⟨hi, hmem, hlo, -⟩ := RangeTree.find?_entries _ _ _ _ hfind
        rw [foldTree, RangeTree.ofShifts, RangeTree.entries_ofEntries] at hmem
        have htarget := htargets _ hmem
        split at h
        · refine absurd h (ofNat_ne_of_lt d _ ?_ hpos)
          dsimp only at htarget
          omega
        · exact h
    · exact h

/-- **Outside ASCII, only the long s and the Kelvin sign fold into ASCII.** -/
theorem lt_or_eq_of_foldChar_lt (c : Char) (h : (foldChar c).toNat < 0x80) (hpos : 0 < (foldChar c).toNat) :
    c.toNat < 0x80 ∨ c = '\u017F' ∨ c = '\u212A' := by
  have htargets : ∀ entry ∈ foldEntries, 0x80 ≤ entry.2.2.2
      ∨ entry.1 = entry.2.1 ∧ (entry.1 = 0x17F ∨ entry.1 = 0x212A) := by decide +kernel
  have heq : ∀ n, c.toNat = n → c = Char.ofNat n := by
    rintro _ rfl
    exact (Char.ofNat_toNat c).symm
  by_cases hc : c.toNat < 0x80
  · exact .inl hc
  · have hshift : foldChar c = foldTree.shift c := if_neg hc
    unfold RangeTree.shift at hshift
    split at hshift
    · next lo step target hfind =>
        obtain ⟨hi, hmem, hlo, hhi⟩ := RangeTree.find?_entries _ _ _ _ hfind
        rw [foldTree, RangeTree.ofShifts, RangeTree.entries_ofEntries] at hmem
        rcases htargets _ hmem with htarget | ⟨hone, hlong | hkelvin⟩
        -- an entry that leads out of ASCII
        · dsimp only at htarget
          split at hshift
          · exact absurd hshift.symm (ofNat_ne_of_lt _ _ (by omega) hpos)
          · exact .inl (by rwa [← hshift])
        · dsimp only at hone hlong
          exact .inr (.inl (heq 0x17F (by omega)))
        · dsimp only at hone hkelvin
          exact .inr (.inr (heq 0x212A (by omega)))
    · exact .inl (by rwa [← hshift])

end TextToSql.Unicode
