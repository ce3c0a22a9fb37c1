import TextToSql.Proofs.Pattern.Captures
import TextToSql.Proofs.Pattern.Place
import TextToSql.Proofs.Pattern.Whole

/-!
# Where captured parts stand

Patterns capture a number or a word behind white space. Such a part stands in the text as it was captured,
and what comes behind it tells whether more could have been taken: behind a run of a class no character of
the class, behind a numeral no digit, and a point with a digit only if the numeral has a point already.

* `locatesAlways_run`, `locates_numeral` : captures behind white space;
* `LocatesAlways.append`, `Locates.prepend` : what stands behind or before the captured part;
* `Locates.exists_part` : the captured part of a match stands at the place of the match in the text.
-/

namespace TextToSql

open Unicode

/-! ## Parts of a text -/

/-- A part of a text stands behind white space, with some characters behind it. -/
def StandsIn (text part after : List Char) : Prop :=
  ∃ before, text = before ++ (part ++ after) ∧ ∃ c ∈ before.getLast?, isWhite c

/-- What stands behind a part that could have gone on as a decimal numeral: a point and a digit. -/
def GoesOn (after : List Char) : Prop := ∃ d rest, after = '.' :: d :: rest ∧ isDecimalDigit d

/-- A part of a text with more text before it. -/
theorem StandsIn.prepend {text part after : List Char} (h : StandsIn text part after) (u : List Char) :
    StandsIn (u ++ text) part after := by
  obtain ⟨before, rfl, c, hc, hwhite⟩ := h
  refine ⟨u ++ before, (List.append_assoc _ _ _).symm, c, ?_, hwhite⟩
  rw [List.getLast?_append, Option.mem_def.mp hc]
  rfl

/-- A part of a match stands behind white space at the place of the match in a text: the number of bytes
before that place is the offset of the match, and what stands behind the part is the rest of the match and
what stands behind the match. -/
def Match.HoldsPart (m : Match) (text : String) (part after : List Char) : Prop :=
  ∃ before behind rest, text.toList = before ++ (m.text.toList ++ rest)
    ∧ m.offset = String.utf8Len before ∧ StandsIn m.text.toList part behind ∧ after = behind ++ rest

/-- A part of a text with more text behind it. -/
theorem StandsIn.append {text part behind : List Char} (h : StandsIn text part behind) (v : List Char) :
    StandsIn (text ++ v) part (behind ++ v) := by
  obtain ⟨before, rfl, hwhite⟩ := h
  exact ⟨before, by simp only [List.append_assoc], hwhite⟩

/-- A part of a match stands in the text. -/
theorem Match.HoldsPart.standsIn {m : Match} {text : String} {part after : List Char}
    (h : m.HoldsPart text part after) : StandsIn text.toList part after := by
  obtain ⟨before, behind, rest, htext, -, hstands, rfl⟩ := h
  rw [htext]
  exact (hstands.append rest).prepend before

/-- A run of a class of characters up to where it ends. -/
def WholeRun (cls : CharClass) (part after : List Char) : Prop :=
  IsRun cls part ∧ ∀ c ∈ after.head?, cls.contains c = false

/-- A decimal numeral up to where its digits end. It may be cut at a second point only. -/
def WholeNumeral (part after : List Char) : Prop :=
  IsDecimal isDecimalDigit part ∧ (∀ c ∈ after.head?, isDecimalDigit c = false)
    ∧ (GoesOn after → '.' ∈ part)

namespace Pattern

/-! ## Runs of characters -/

/-- A repetition takes a run of its class up to where it ends. -/
theorem wholeRun_of_mem_runs (cls : CharClass) (before : Option Char) (s : List Char) (r : Run)
    (h : r ∈ (run cls).runs before s) : WholeRun cls r.taken r.rest ∧ r.captures = [] := by
  have hrun := isRun_of_takes_run cls r.taken ⟨before, s, r, h, rfl⟩
  cases s with
  | nil => cases h
  | cons c s =>
      rw [runs, takeRun?] at h
      split at h
      · cases h
      · next htake =>
          obtain rfl := List.mem_singleton.mp h
          split at htake
          · obtain ⟨rfl, rfl⟩ := Prod.mk.inj (Option.some.inj htake)
            refine ⟨⟨hrun, fun d hd => ?_⟩, rfl⟩
            simpa [Option.mem_def.mp hd] using List.head?_dropWhile_not cls.contains s
          · cases htake

/-- The decimal part of a numeral is tried where a point and a digit stand. -/
theorem runs_fraction_ne_nil (before : Option Char) (s : List Char) (h : GoesOn s) :
    (lit "." ++ digits).runs before s ≠ [] := by
  obtain ⟨d, rest, rfl, hd⟩ := h
  have hlit : (lit ".").runs before ('.' :: d :: rest) = [⟨['.'], d :: rest, []⟩] :=
    runs_lit_append "." before (d :: rest)
  have hdigits : takeRun? .digit (d :: rest)
      = some (d :: rest.takeWhile isDecimalDigit, rest.dropWhile isDecimalDigit) := if_pos hd
  show (seq (lit ".") digits).runs before _ ≠ []
  rw [runs, hlit, List.flatMap_singleton]
  simp [digits, runs, hdigits]

/-- The preferred numeral is taken up to where its digits end. -/
theorem wholeNumeral_of_head?_runs (before : Option Char) (s : List Char) (r : Run)
    (h : (numeral.runs before s).head? = some r) : WholeNumeral r.taken r.rest := by
  obtain ⟨r₁, hr₁, r₂, hr₂, rfl⟩ := head?_runs_append digits (optional (lit "." ++ digits)) before s r h
  obtain ⟨⟨hwhole, hend⟩, -⟩ := wholeRun_of_mem_runs .digit before s r₁ hr₁
  have hruns : (optional (lit "." ++ digits)).runs (lastOf before r₁.taken) r₁.rest
      = (lit "." ++ digits).runs (lastOf before r₁.taken) r₁.rest ++ [⟨[], r₁.rest, []⟩] := rfl
  rw [hruns] at hr₂
  cases hfraction : (lit "." ++ digits).runs (lastOf before r₁.taken) r₁.rest with
  -- no decimal part is taken, as no point with a digit stands there
  | nil =>
      rw [hfraction] at hr₂
      obtain rfl := Option.some.inj hr₂
      refine ⟨⟨r₁.taken, hwhole, Or.inl (List.append_nil _)⟩, hend, fun hgoes => ?_⟩
      exact absurd hfraction (runs_fraction_ne_nil _ _ hgoes)
  -- the decimal part ends where its digits end
  | cons r₃ rs =>
      rw [hfraction] at hr₂
      obtain rfl := Option.some.inj hr₂
      have hr₃ : r₃ ∈ (lit "." ++ digits).runs (lastOf before r₁.taken) r₁.rest := by
        rw [hfraction]
        exact List.mem_cons_self
      obtain ⟨r₄, hr₄, r₅, hr₅, rfl⟩ := mem_runs_append.mp hr₃
      obtain ⟨⟨hdigits, hend'⟩, -⟩ := wholeRun_of_mem_runs .digit _ _ r₅ hr₅
      have hpoint : r₄.taken = ['.'] := takes_point r₄.taken ⟨_, _, r₄, hr₄, rfl⟩
      have htaken : r₁.taken ++ (r₄.taken ++ r₅.taken) = r₁.taken ++ '.' :: r₅.taken := by
        rw [hpoint]
        rfl
      simp only [Run.followedBy, htaken]
      exact ⟨⟨r₁.taken, hwhole, Or.inr ⟨r₅.taken, hdigits, rfl⟩⟩, hend', fun _ => by simp⟩

/-! ## Captured parts -/

/-- A run captures a part of what it takes behind white space that has the wanted form, and `k` more parts
behind it. -/
def Run.Locates (r : Run) (k : Nat) (wanted : List Char → List Char → Prop) : Prop :=
  ∃ part behind, r.captures.reverse[k]? = some part ∧ StandsIn r.taken part behind
    ∧ wanted part (behind ++ r.rest)

/-- The preferred run of a pattern captures a part of the wanted form behind white space. -/
def Locates (p : Pattern) (k : Nat) (wanted : List Char → List Char → Prop) : Prop :=
  ∀ before s r, (p.runs before s).head? = some r → r.Locates k wanted

/-- Every run of a pattern captures a part of the wanted form behind white space. -/
def LocatesAlways (p : Pattern) (k : Nat) (wanted : List Char → List Char → Prop) : Prop :=
  ∀ before s, ∀ r ∈ p.runs before s, r.Locates k wanted

variable {p q : Pattern} {k : Nat} {wanted : List Char → List Char → Prop}

/-- What every run captures, the preferred one does. -/
theorem LocatesAlways.locates (h : p.LocatesAlways k wanted) : p.Locates k wanted :=
  fun before s r hr => h before s r (List.mem_of_mem_head? hr)

/-- What is captured behind white space stands there. -/
theorem Run.locates_of_spaces (before : Option Char) (s : List Char) (r₀ r₁ r : Run)
    (h₁ : r₁ ∈ spaces.runs before s) (hwanted : wanted r.taken r.rest)
    (hcaptures : r.captures = []) : ((r₀.followedBy r₁).followedBy r.captured).Locates 0 wanted := by
  obtain ⟨⟨⟨hne, hwhite⟩, -⟩, -⟩ := wholeRun_of_mem_runs .space before s r₁ h₁
  refine ⟨r.taken, [], ?_, ⟨r₀.taken ++ r₁.taken, ?_, r₁.taken.getLast hne, ?_, ?_⟩, hwanted⟩
  · simp [Run.followedBy, Run.captured, hcaptures]
  · simp [Run.followedBy, Run.captured]
  · rw [List.getLast?_append_of_ne_nil _ hne, List.getLast?_eq_some_getLast hne]
    rfl
  · exact hwhite _ (List.getLast_mem hne)

/-- A run of a class that is captured behind white space is whole. -/
theorem locatesAlways_run (p : Pattern) (cls : CharClass) :
    (p ++ spaces ++ capture (run cls)).LocatesAlways 0 (WholeRun cls) := by
  intro before s r hr
  obtain ⟨r₀₁, hr₀₁, r', hr', rfl⟩ := mem_runs_append.mp hr
  obtain ⟨r₀, -, r₁, hr₁, rfl⟩ := mem_runs_append.mp hr₀₁
  obtain ⟨r'', hr'', rfl⟩ := List.mem_map.mp hr'
  obtain ⟨hwhole, hcaptures⟩ := wholeRun_of_mem_runs cls _ _ r'' hr''
  exact Run.locates_of_spaces _ _ r₀ r₁ r'' hr₁ hwhole hcaptures

/-- A numeral that is captured behind white space is whole in the preferred run. -/
theorem locates_numeral (p : Pattern) : (p ++ spaces ++ capture numeral).Locates 0 WholeNumeral := by
  intro before s r hr
  obtain ⟨r₀₁, hr₀₁, r', hr', rfl⟩ := head?_runs_append (p ++ spaces) (capture numeral) before s r hr
  obtain ⟨r₀, -, r₁, hr₁, rfl⟩ := mem_runs_append.mp hr₀₁
  have hcapture : ∀ before s, (capture numeral).runs before s = (numeral.runs before s).map Run.captured :=
    fun _ _ => rfl
  rw [hcapture, List.head?_map, Option.map_eq_some_iff] at hr'
  obtain ⟨r'', hr'', rfl⟩ := hr'
  have hmem := List.mem_of_mem_head? hr''
  have hcaptures : r''.captures = [] := (yields_numeral _).mp (yields_of_mem_runs _ _ _ r'' hmem)
  exact Run.locates_of_spaces _ _ r₀ r₁ r'' hr₁ (wholeNumeral_of_head?_runs _ _ r'' hr'') hcaptures

/-- More may be taken and captured behind the part. -/
theorem LocatesAlways.append (h : p.LocatesAlways k wanted) (q : Pattern) (j : Nat)
    (hq : ∀ cs, q.Yields cs → cs.length = j) : (p ++ q).LocatesAlways (k + j) wanted := by
  intro before s r hr
  obtain ⟨r₁, hr₁, r₂, hr₂, rfl⟩ := mem_runs_append.mp hr
  obtain ⟨part, behind, hpart, hstands, hwanted⟩ := h before s r₁ hr₁
  have hlength : r₂.captures.reverse.length = j := by
    rw [List.length_reverse]
    exact hq _ (yields_of_mem_runs q _ _ r₂ hr₂)
  have hrest := taken_append_rest q _ _ r₂ hr₂
  refine ⟨part, behind ++ r₂.taken, ?_, hstands.append r₂.taken, ?_⟩
  · simp only [Run.followedBy]
    rw [List.reverse_append, List.getElem?_append_right (by omega), hlength, Nat.add_sub_cancel, hpart]
  · simp only [Run.followedBy]
    rwa [List.append_assoc, hrest]

/-- Other things may be taken and captured before the part. -/
theorem Locates.prepend (h : q.Locates k wanted) (p : Pattern) : (p ++ q).Locates k wanted := by
  intro before s r hr
  obtain ⟨r₁, -, r₂, hr₂, rfl⟩ := head?_runs_append p q before s r hr
  obtain ⟨part, behind, hpart, hstands, hwanted⟩ := h _ _ r₂ hr₂
  obtain ⟨hlength, -⟩ := List.getElem?_eq_some_iff.mp hpart
  refine ⟨part, behind, ?_, hstands.prepend r₁.taken, hwanted⟩
  simp only [Run.followedBy]
  rw [List.reverse_append, List.getElem?_append_left hlength, hpart]

/-! ## Matches -/

/-- **What a match captures behind white space** stands at its place in the text in the wanted form. -/
theorem Locates.exists_part (h : p.Locates k wanted) (text : String) (m : Match)
    (hm : m ∈ p.matchesIn text) :
    ∃ part after, m.captures.reverse[k]? = some part ∧ m.HoldsPart text part.toList after
      ∧ wanted part.toList after := by
  obtain ⟨u, r, htext, hhead, rfl⟩ := (finds_matchesIn p text).exists_place m hm
  obtain ⟨part, behind, hpart, hstands, hwanted⟩ := h _ _ r hhead
  refine ⟨String.ofList part, behind ++ r.rest, ?_, ⟨u, behind, r.rest, ?_, ?_, ?_, rfl⟩, ?_⟩
  · simp only [Run.toMatch]
    rw [← List.map_reverse, List.getElem?_map, hpart]
    rfl
  · rw [Run.toMatch, String.toList_ofList, htext]
  · rw [Run.toMatch, Nat.zero_add]
  · rwa [Run.toMatch, String.toList_ofList, String.toList_ofList]
  · rwa [String.toList_ofList]

end Pattern

end TextToSql
