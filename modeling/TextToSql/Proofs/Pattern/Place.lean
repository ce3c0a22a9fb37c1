import Mathlib.Data.String.Basic
import TextToSql.Pattern.Scan

/-!
# Where matches stand

A scan tries a pattern place by place and goes on behind each match. So every match stands in the text at
the number of bytes that it gives, each one ends before the next one starts, and a place where the pattern
takes something can be missed only if a match from an earlier place reaches beyond it.

* `finds_matchesIn` : the matches in a text are those of such a scan;
* `Finds.exists_place` : every match is the preferred run at its place;
* `Finds.pairwise` : matches follow one another and do not overlap;
* `Finds.reaches` : no place is lost;
* `occursIn_iff_runs` : a pattern occurs in a text exactly where it has a run at some place;
* `head?_runs_append` : the preferred run of two patterns one after the other.
-/

namespace TextToSql.Pattern

open String (utf8Len)

/-! ## Scans -/

/-- How a scan goes over a text from a place on: one character further where the pattern has no match, and
behind the match where it has one. A match that takes nothing is left by one character. -/
inductive Finds (p : Pattern) : Option Char → Nat → Bool → List Char → List Match → Prop
  | stop (before : Option Char) (offset : Nat) (justEnded : Bool)
      (h : p.matchAt? before justEnded [] = none) : Finds p before offset justEnded [] []
  | pass (before : Option Char) (offset : Nat) (justEnded : Bool) (c : Char) (s : List Char)
      (found : List Match) (h : p.matchAt? before justEnded (c :: s) = none)
      (hrest : Finds p (some c) (offset + c.utf8Size) false s found) :
      Finds p before offset justEnded (c :: s) found
  | take (before : Option Char) (offset : Nat) (justEnded : Bool) (s : List Char) (r : Run)
      (found : List Match) (h : p.matchAt? before justEnded s = some r) (hne : r.taken ≠ [])
      (hrest : Finds p (lastOf before r.taken) (offset + utf8Len r.taken) true r.rest found) :
      Finds p before offset justEnded s (r.toMatch offset :: found)
  | touchEnd (before : Option Char) (offset : Nat) (justEnded : Bool) (r : Run)
      (h : p.matchAt? before justEnded [] = some r) (hnil : r.taken = []) :
      Finds p before offset justEnded [] [r.toMatch offset]
  | touch (before : Option Char) (offset : Nat) (justEnded : Bool) (c : Char) (s : List Char) (r : Run)
      (found : List Match) (h : p.matchAt? before justEnded (c :: s) = some r) (hnil : r.taken = [])
      (hrest : Finds p (some c) (offset + c.utf8Size) false s found) :
      Finds p before offset justEnded (c :: s) (r.toMatch offset :: found)

/-- The match at a place is the preferred run there. -/
theorem head?_runs_of_matchAt? (p : Pattern) (before : Option Char) (justEnded : Bool) (s : List Char)
    (r : Run) (h : p.matchAt? before justEnded s = some r) : (p.runs before s).head? = some r := by
  rw [matchAt?] at h
  split at h
  · cases h
  · next r' rs hruns =>
      split at h
      · cases h
      · rw [hruns]
        exact h

/-- Where the preferred run takes something, it is the match. -/
theorem matchAt?_of_head?_runs (p : Pattern) (before : Option Char) (justEnded : Bool) (s : List Char)
    (r : Run) (h : (p.runs before s).head? = some r) (hne : r.taken ≠ []) :
    p.matchAt? before justEnded s = some r := by
  obtain ⟨rs, hruns⟩ := List.head?_eq_some_iff.mp h
  simp [matchAt?, hruns, hne]

/-- What is skipped is passed over. -/
theorem matchesFrom_skip (p : Pattern) (before : Option Char) (offset : Nat) (justEnded : Bool)
    (skipped rest : List Char) :
    p.matchesFrom before offset skipped.length justEnded (skipped ++ rest)
      = p.matchesFrom (lastOf before skipped) (offset + utf8Len skipped) 0
          (justEnded || !skipped.isEmpty) rest := by
  induction skipped generalizing before offset justEnded with
  | nil => simp [lastOf]
  | cons c skipped ih =>
      have hlast : lastOf before (c :: skipped) = lastOf (some c) skipped := lastOf_append before [c] skipped
      have hbytes : offset + utf8Len (c :: skipped) = offset + c.utf8Size + utf8Len skipped := by
        rw [String.utf8Len_cons]
        omega
      rw [List.length_cons, List.cons_append, matchesFrom, ih, hlast, hbytes]
      simp

/-- Behind a match that takes something, the search goes on where the match ends. -/
theorem matchesFrom_of_matchAt? (p : Pattern) (before : Option Char) (offset : Nat) (justEnded : Bool)
    (r : Run) (hat : p.matchAt? before justEnded (r.taken ++ r.rest) = some r) (hne : r.taken ≠ []) :
    p.matchesFrom before offset 0 justEnded (r.taken ++ r.rest)
      = r.toMatch offset
          :: p.matchesFrom (lastOf before r.taken) (offset + utf8Len r.taken) 0 true r.rest := by
  obtain ⟨c, taken, htaken⟩ := List.exists_cons_of_ne_nil hne
  have hskip := p.matchesFrom_skip (some c) (offset + c.utf8Size) true taken r.rest
  have hlast : lastOf (some c) taken = lastOf before r.taken := by
    rw [htaken]
    exact (lastOf_append before [c] taken).symm
  have hbytes : offset + c.utf8Size + utf8Len taken = offset + utf8Len r.taken := by
    rw [htaken, String.utf8Len_cons]
    omega
  rw [hlast, hbytes, Bool.true_or] at hskip
  have hlength : r.taken.length - 1 = taken.length := by simp [htaken]
  have hempty : (!r.taken.isEmpty) = true := by simp [htaken]
  have hcons : r.taken ++ r.rest = c :: (taken ++ r.rest) := by rw [htaken, List.cons_append]
  rw [hcons] at hat ⊢
  rw [matchesFrom, hat]
  dsimp only
  rw [hlength, hempty, hskip]

/-- The matches from a place on are those that a scan finds. -/
theorem finds_matchesFrom (p : Pattern) (before : Option Char) (offset : Nat) (justEnded : Bool)
    (s : List Char) : p.Finds before offset justEnded s (p.matchesFrom before offset 0 justEnded s) := by
  -- on the length of the text: behind a match the scan goes on some characters further on
  induction hlength : s.length using Nat.strong_induction_on generalizing before offset justEnded s with
  | _ n ih =>
      cases hat : p.matchAt? before justEnded s with
      | none =>
          cases s with
          | nil =>
              rw [matchesFrom, hat]
              exact .stop before offset justEnded hat
          | cons c s =>
              rw [List.length_cons] at hlength
              rw [matchesFrom, hat]
              exact .pass before offset justEnded c s _ hat (ih s.length (by omega) _ _ _ s rfl)
      | some r =>
          have hs := taken_append_rest p before s r (mem_runs_of_matchAt? p _ _ _ r hat)
          by_cases hnil : r.taken = []
          · cases s with
            | nil =>
                rw [matchesFrom, hat]
                exact .touchEnd before offset justEnded r hat hnil
            | cons c s =>
                rw [List.length_cons] at hlength
                have hrest := ih s.length (by omega) (some c) (offset + c.utf8Size) false s rfl
                rw [matchesFrom, hat]
                dsimp only
                rw [hnil]
                exact .touch before offset justEnded c s r _ hat hnil hrest
          · subst hs
            have hpos := List.length_pos_of_ne_nil hnil
            rw [List.length_append] at hlength
            rw [matchesFrom_of_matchAt? p before offset justEnded r hat hnil]
            exact .take before offset justEnded _ r _ hat hnil (ih r.rest.length (by omega) _ _ _ _ rfl)

/-- The matches in a text are those that a scan of the text finds. -/
theorem finds_matchesIn (p : Pattern) (text : String) :
    p.Finds none 0 false text.toList (p.matchesIn text) := by
  rw [matchesIn_eq]
  exact finds_matchesFrom p none 0 false text.toList

/-! ## Places -/

namespace Finds

variable {p : Pattern} {before : Option Char} {offset : Nat} {justEnded : Bool} {s : List Char}
  {found : List Match}

/-- A place behind some more characters. -/
theorem lastOf_utf8Len_append (before : Option Char) (offset : Nat) (u v : List Char) :
    lastOf (lastOf before u) v = lastOf before (u ++ v)
      ∧ offset + utf8Len u + utf8Len v = offset + utf8Len (u ++ v) := by
  rw [lastOf_append, String.utf8Len_append]
  exact ⟨rfl, by omega⟩

/-- **Every match is the preferred run at its place**, and gives the number of bytes before it. -/
theorem exists_place (h : p.Finds before offset justEnded s found) (m : Match) (hm : m ∈ found) :
    ∃ u r, s = u ++ (r.taken ++ r.rest) ∧ (p.runs (lastOf before u) (r.taken ++ r.rest)).head? = some r
      ∧ m = r.toMatch (offset + utf8Len u) := by
  -- the match at the place where the scan is
  have hhere : ∀ {before offset justEnded s r}, p.matchAt? before justEnded s = some r →
      ∃ u r', s = u ++ (r'.taken ++ r'.rest)
        ∧ (p.runs (lastOf before u) (r'.taken ++ r'.rest)).head? = some r'
        ∧ r.toMatch offset = r'.toMatch (offset + utf8Len u) := by
    intro before offset justEnded s r hat
    have hhead := head?_runs_of_matchAt? p before justEnded s r hat
    have hs := taken_append_rest p before s r (List.mem_of_mem_head? hhead)
    exact ⟨[], r, hs.symm, by rwa [hs], rfl⟩
  -- a match that is found further on
  have hfurther : ∀ {before offset t s}, (∃ u r, s = u ++ (r.taken ++ r.rest)
      ∧ (p.runs (lastOf (lastOf before t) u) (r.taken ++ r.rest)).head? = some r
      ∧ m = r.toMatch (offset + utf8Len t + utf8Len u)) →
      ∃ u r, t ++ s = u ++ (r.taken ++ r.rest)
        ∧ (p.runs (lastOf before u) (r.taken ++ r.rest)).head? = some r
        ∧ m = r.toMatch (offset + utf8Len u) := by
    rintro before offset t s ⟨u, r, rfl, hr, rfl⟩
    obtain ⟨hlast, hbytes⟩ := lastOf_utf8Len_append before offset t u
    rw [hlast] at hr
    exact ⟨t ++ u, r, (List.append_assoc _ _ _).symm, hr, by rw [hbytes]⟩
  induction h with
  | stop => cases hm
  | pass before offset justEnded c s found hat _ ih =>
      exact hfurther (t := [c]) (by simpa [lastOf] using ih hm)
  | take before offset justEnded s r found hat hne _ ih =>
      rcases List.mem_cons.mp hm with rfl | hm
      · exact hhere hat
      · have hs := taken_append_rest p before s r (mem_runs_of_matchAt? p _ _ _ r hat)
        rw [← hs]
        exact hfurther (ih hm)
  | touchEnd before offset justEnded r hat _ =>
      obtain rfl := List.mem_singleton.mp hm
      exact hhere hat
  | touch before offset justEnded c s r found hat _ _ ih =>
      rcases List.mem_cons.mp hm with rfl | hm
      · exact hhere hat
      · exact hfurther (t := [c]) (by simpa [lastOf] using ih hm)

/-- **Matches follow one another**: each one starts behind the start of the one before it, and not before
its end. -/
theorem pairwise (h : p.Finds before offset justEnded s found) :
    (∀ m ∈ found, offset ≤ m.offset)
      ∧ found.Pairwise fun m m' => m.offset < m'.offset ∧ m.offset + m.text.utf8ByteSize ≤ m'.offset := by
  -- what is found further on is found from here on
  have hlater : ∀ {found : List Match} {offset k : Nat}, (∀ m ∈ found, offset + k ≤ m.offset) →
      ∀ m ∈ found, offset ≤ m.offset :=
    fun h m hm => Nat.le_trans (Nat.le_add_right _ _) (h m hm)
  induction h with
  | stop => exact ⟨by simp, .nil⟩
  | pass before offset justEnded c s found _ _ ih => exact ⟨hlater ih.1, ih.2⟩
  | take before offset justEnded s r found _ hne _ ih =>
      have hpos : 0 < utf8Len r.taken := Nat.pos_of_ne_zero (mt String.utf8Len_eq_zero.mp hne)
      refine ⟨List.forall_mem_cons.mpr ⟨Nat.le_refl _, hlater ih.1⟩, List.pairwise_cons.mpr ⟨?_, ih.2⟩⟩
      intro m hm
      have hle := ih.1 m hm
      simp only [Run.toMatch, String.utf8ByteSize_ofList]
      omega
  | touchEnd => exact ⟨by simp [Run.toMatch], List.pairwise_singleton _ _⟩
  | touch before offset justEnded c s r found _ hnil _ ih =>
      have hpos := c.utf8Size_pos
      refine ⟨List.forall_mem_cons.mpr ⟨Nat.le_refl _, hlater ih.1⟩, List.pairwise_cons.mpr ⟨?_, ih.2⟩⟩
      intro m hm
      have hle := ih.1 m hm
      simp only [Run.toMatch, hnil, String.utf8ByteSize_ofList, String.utf8Len_nil]
      omega

end Finds

/-! ## No place is lost -/

/-- A match reaches over the place between two parts of a text: it starts in the first part, or where that
ends, and reaches beyond the end. -/
def Reaches (p : Pattern) (before : Option Char) (offset : Nat) (found : List Match) (u v : List Char) :
    Prop :=
  ∃ x y r, u = x ++ y ∧ r ∈ p.runs (lastOf before x) (y ++ v) ∧ y.length < r.taken.length
    ∧ r.toMatch (offset + utf8Len x) ∈ found

/-- What reaches over a place from some characters on reaches over it from before them. -/
theorem Reaches.append {p : Pattern} {before : Option Char} {offset : Nat} {found found' : List Match}
    {t u v : List Char} (h : p.Reaches (lastOf before t) (offset + utf8Len t) found u v)
    (hfound : ∀ m ∈ found, m ∈ found') : p.Reaches before offset found' (t ++ u) v := by
  obtain ⟨x, y, r, rfl, hr, hlength, hmem⟩ := h
  obtain ⟨hlast, hbytes⟩ := Finds.lastOf_utf8Len_append before offset t x
  rw [hlast] at hr
  rw [hbytes] at hmem
  exact ⟨t ++ x, y, r, (List.append_assoc _ _ _).symm, hr, hlength, hfound _ hmem⟩

/-- **No place is lost.** Where the pattern takes something, there is a match, or one from an earlier place
reaches beyond it. -/
theorem Finds.reaches {p : Pattern} {before : Option Char} {offset : Nat} {justEnded : Bool}
    {s : List Char} {found : List Match} (h : p.Finds before offset justEnded s found) (u v : List Char)
    (hs : s = u ++ v) (r : Run) (hr : (p.runs (lastOf before u) v).head? = some r) (hne : r.taken ≠ []) :
    p.Reaches before offset found u v := by
  induction h generalizing u with
  | stop before offset justEnded hnone =>
      obtain ⟨rfl, rfl⟩ := List.append_eq_nil_iff.mp hs.symm
      rw [matchAt?_of_head?_runs p before justEnded [] r hr hne] at hnone
      cases hnone
  | pass before offset justEnded c s found hnone _ ih =>
      cases u with
      | nil =>
          obtain rfl := hs
          rw [matchAt?_of_head?_runs p before justEnded _ r hr hne] at hnone
          cases hnone
      | cons d u =>
          obtain ⟨rfl, rfl⟩ := List.cons.inj hs
          have hlast : lastOf before (c :: u) = lastOf (some c) u := lastOf_append before [c] u
          rw [hlast] at hr
          exact Reaches.append (t := [c]) (by simpa [lastOf] using ih u rfl hr) fun m hm => hm
  | take before offset justEnded s r' found hat hne' _ ih =>
      have hr' := mem_runs_of_matchAt? p before justEnded s r' hat
      have htaken := taken_append_rest p before s r' hr'
      by_cases hreach : u.length < r'.taken.length
      -- the match at the place where the scan is reaches over the place
      · rw [hs] at hr'
        exact ⟨[], u, r', rfl, hr', hreach, List.mem_cons_self⟩
      -- the place stands behind it
      · have hprefix : r'.taken <+: u :=
          List.prefix_of_prefix_length_le ⟨r'.rest, htaken⟩ ⟨v, hs.symm⟩ (Nat.le_of_not_lt hreach)
        obtain ⟨w, rfl⟩ := hprefix
        have hrest : r'.rest = w ++ v := by
          rw [← htaken, List.append_assoc] at hs
          exact List.append_cancel_left hs
        rw [lastOf_append] at hr
        exact Reaches.append (ih w hrest hr) fun m hm => List.mem_cons_of_mem _ hm
  | touchEnd before offset justEnded r' hat hnil =>
      obtain ⟨rfl, rfl⟩ := List.append_eq_nil_iff.mp hs.symm
      exact absurd (List.append_eq_nil_iff.mp
        (taken_append_rest p _ [] r (List.mem_of_mem_head? hr))).1 hne
  | touch before offset justEnded c s r' found hat hnil _ ih =>
      cases u with
      | nil =>
          obtain rfl := hs
          rw [matchAt?_of_head?_runs p before justEnded _ r hr hne, Option.some.injEq] at hat
          rw [hat] at hne
          exact absurd hnil hne
      | cons d u =>
          obtain ⟨rfl, rfl⟩ := List.cons.inj hs
          have hlast : lastOf before (c :: u) = lastOf (some c) u := lastOf_append before [c] u
          rw [hlast] at hr
          exact Reaches.append (t := [c]) (by simpa [lastOf] using ih u rfl hr)
            fun m hm => List.mem_cons_of_mem _ hm

/-- A match counts at a place where the pattern has a run, unless another one has just ended there. -/
theorem matchAt?_ne_none (p : Pattern) (before : Option Char) (s : List Char)
    (h : p.runs before s ≠ []) : p.matchAt? before false s ≠ none := by
  obtain ⟨r, rs, hruns⟩ := List.exists_cons_of_ne_nil h
  simp [matchAt?, hruns]

/-- A scan finds something if the pattern has a run at some place, be it one that takes nothing. -/
theorem Finds.ne_nil {p : Pattern} {before : Option Char} {offset : Nat} {s : List Char}
    {found : List Match} (h : p.Finds before offset false s found) (u v : List Char) (hs : s = u ++ v)
    (hruns : p.runs (lastOf before u) v ≠ []) : found ≠ [] := by
  generalize hended : false = justEnded at h
  induction h generalizing u with
  | stop before offset justEnded hnone =>
      obtain ⟨rfl, rfl⟩ := List.append_eq_nil_iff.mp hs.symm
      subst hended
      exact absurd hnone (matchAt?_ne_none p before [] hruns)
  | pass before offset justEnded c s found hnone _ ih =>
      cases u with
      | nil =>
          obtain rfl := hs
          subst hended
          exact absurd hnone (matchAt?_ne_none p before _ hruns)
      | cons d u =>
          obtain ⟨rfl, rfl⟩ := List.cons.inj hs
          have hlast : lastOf before (c :: u) = lastOf (some c) u := lastOf_append before [c] u
          rw [hlast] at hruns
          exact ih u rfl hruns rfl
  | take => exact List.cons_ne_nil _ _
  | touchEnd => exact List.cons_ne_nil _ _
  | touch => exact List.cons_ne_nil _ _

/-- **A pattern occurs in a text exactly where it has a run at some place.** -/
theorem occursIn_iff_runs (p : Pattern) (text : String) :
    p.occursIn text ↔ ∃ u v, text.toList = u ++ v ∧ p.runs (lastOf none u) v ≠ [] := by
  have hmatch : p.occursIn text ↔ p.matchesIn text ≠ [] := by
    rw [ne_eq, matchesIn_eq_nil_iff, Bool.not_eq_false]
  rw [hmatch]
  constructor
  · intro hfound
    obtain ⟨m, hm⟩ := List.exists_mem_of_ne_nil _ hfound
    obtain ⟨u, r, htext, hhead, -⟩ := (finds_matchesIn p text).exists_place m hm
    exact ⟨u, _, htext, List.ne_nil_of_mem (List.mem_of_mem_head? hhead)⟩
  · rintro ⟨u, v, htext, hruns⟩
    exact (finds_matchesIn p text).ne_nil u v htext hruns

/-! ## The preferred run -/

/-- The preferred run of two patterns one after the other is a run of the first and then the preferred run
of the second behind it. -/
theorem head?_runs_append (p q : Pattern) (before : Option Char) (s : List Char) (r : Run)
    (h : ((p ++ q).runs before s).head? = some r) :
    ∃ r₁ ∈ p.runs before s, ∃ r₂, (q.runs (lastOf before r₁.taken) r₁.rest).head? = some r₂
      ∧ r = r₁.followedBy r₂ := by
  have hruns : (p ++ q).runs before s
      = (p.runs before s).flatMap fun r₁ =>
          (q.runs (lastOf before r₁.taken) r₁.rest).map (Run.followedBy r₁) := rfl
  rw [hruns] at h
  generalize p.runs before s = rs at h ⊢
  induction rs with
  | nil => cases h
  | cons r₁ rs ih =>
      rw [List.flatMap_cons] at h
      cases hhead : (q.runs (lastOf before r₁.taken) r₁.rest).head? with
      | none =>
          rw [List.head?_eq_none_iff.mp hhead] at h
          obtain ⟨r', hr', hrest⟩ := ih h
          exact ⟨r', List.mem_cons_of_mem _ hr', hrest⟩
      | some r₂ =>
          obtain ⟨rs', hrs'⟩ := List.head?_eq_some_iff.mp hhead
          rw [hrs'] at h
          exact ⟨r₁, List.mem_cons_self, r₂, hhead, (Option.some.inj h).symm⟩

end TextToSql.Pattern
