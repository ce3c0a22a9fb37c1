import TextToSql.Proofs.Pattern.Place
import TextToSql.Proofs.Pattern.Spaced
import TextToSql.Proofs.Pattern.Whole

/-!
# Whole-word occurrences

Where a term occurs in a text, up to case and between word boundaries, and which of the occurrences of
several terms a scan for them gives. Every match is an occurrence, but an occurrence need not be a match:
it may start inside the match of another term.

* `mem_runs_whole_oneOf` : terms are taken where one of them occurs;
* `occurs_of_mem_matchesIn` : every match is an occurrence at the bytes that it gives;
* `exists_match_over` : every occurrence starts inside a match;
* `occursIn_whole_oneOf` : a text with an occurrence is one where a match is found.
-/

namespace TextToSql.Pattern

open Unicode
open String (utf8Len)

/-- A part of a text where a term stands as a whole word: it is the term up to case, and there is a word
boundary at both of its ends. -/
structure Occurs (term before part after : String) : Prop where
  folds : Folds term.toList part.toList
  starts : isBoundary before.toList.getLast? (part.toList ++ after.toList).head?
  ends : isBoundary (before.toList ++ part.toList).getLast? after.toList.head?

instance (term before part after : String) : Decidable (Occurs term before part after) :=
  decidable_of_iff (Folds term.toList part.toList
      ∧ isBoundary before.toList.getLast? (part.toList ++ after.toList).head?
      ∧ isBoundary (before.toList ++ part.toList).getLast? after.toList.head?)
    ⟨fun ⟨hfolds, hstarts, hends⟩ => ⟨hfolds, hstarts, hends⟩, fun h => ⟨h.folds, h.starts, h.ends⟩⟩

/-! ## Texts up to case -/

/-- A text takes what is equal to it up to case. -/
theorem dropText?_of_folds (t taken rest : List Char) (h : Folds t taken) :
    dropText? t (taken ++ rest) = some (taken, rest) := by
  induction h with
  | nil => rfl
  | cons hfold _ ih =>
      rw [List.cons_append, dropText?, if_pos hfold, ih]
      rfl

/-- A text has one run, where something equal to it up to case stands. -/
theorem mem_runs_lit (text : String) (before : Option Char) (s : List Char) (r : Run) :
    r ∈ (lit text).runs before s ↔ Folds text.toList r.taken ∧ s = r.taken ++ r.rest ∧ r.captures = [] := by
  rw [lit, runs]
  constructor
  · intro h
    split at h
    · cases h
    · next taken rest hdrop =>
        obtain rfl := List.mem_singleton.mp h
        exact ⟨forall₂_of_dropText? _ _ _ _ hdrop, (dropText?_append _ _ _ _ hdrop).symm, rfl⟩
  · rintro ⟨hfolds, rfl, hcaptures⟩
    obtain ⟨taken, rest, captures⟩ := r
    obtain rfl : captures = [] := hcaptures
    rw [dropText?_of_folds _ _ _ hfolds]
    exact List.mem_singleton_self _

/-- Texts that are equal up to case are empty together. -/
theorem Folds.ne_nil {t taken : List Char} (h : Folds t taken) (hne : t ≠ []) : taken ≠ [] := by
  cases h with
  | nil => exact absurd rfl hne
  | cons => exact List.cons_ne_nil _ _

/-! ## Runs -/

/-- **Terms are taken between word boundaries exactly where one of them occurs.** -/
theorem mem_runs_whole_oneOf (terms : List String) (hne : terms ≠ []) (before taken rest : List Char) :
    (∃ r ∈ (whole (oneOf terms)).runs (lastOf none before) (taken ++ rest), r.taken = taken ∧ r.rest = rest)
      ↔ ∃ term ∈ terms, Occurs term (String.ofList before) (String.ofList taken) (String.ofList rest) := by
  have hlast : lastOf none before = before.getLast? := Option.or_none
  have hlast' : lastOf before.getLast? taken = (before ++ taken).getLast? := by
    rw [← hlast, ← lastOf_append, lastOf, Option.or_none]
  simp only [mem_runs_whole, mem_runs_oneOf terms hne, mem_runs_lit, hlast]
  constructor
  · rintro ⟨r, ⟨⟨term, hterm, hfolds, -, -⟩, hstarts, hends⟩, rfl, rfl⟩
    rw [hlast'] at hends
    refine ⟨term, hterm, ?_, ?_, ?_⟩ <;> simpa only [String.toList_ofList]
  · rintro ⟨term, hterm, hfolds, hstarts, hends⟩
    simp only [String.toList_ofList] at hfolds hstarts hends
    rw [← hlast'] at hends
    exact ⟨⟨taken, rest, []⟩, ⟨⟨term, hterm, hfolds, rfl, rfl⟩, hstarts, hends⟩, rfl, rfl⟩

/-- A text in three parts. -/
theorem eq_append_of_toList (text : String) (u v w : List Char) (h : text.toList = u ++ (v ++ w)) :
    text = String.ofList u ++ String.ofList v ++ String.ofList w := by
  rw [← String.ofList_append, ← String.ofList_append, List.append_assoc, ← h, String.ofList_toList]

/-! ## Matches -/

/-- **Every match is an occurrence**, and it stands at the bytes that the match gives. -/
theorem occurs_of_mem_matchesIn (terms : List String) (hne : terms ≠ []) (text : String) (m : Match)
    (hm : m ∈ (whole (oneOf terms)).matchesIn text) :
    ∃ before after, text = before ++ m.text ++ after ∧ m.offset = before.utf8ByteSize
      ∧ ∃ term ∈ terms, Occurs term before m.text after := by
  obtain ⟨u, r, htext, hhead, rfl⟩ := (finds_matchesIn _ text).exists_place m hm
  refine ⟨String.ofList u, String.ofList r.rest, eq_append_of_toList text _ _ _ htext, ?_, ?_⟩
  · simp only [Run.toMatch, String.utf8ByteSize_ofList, Nat.zero_add]
  · exact (mem_runs_whole_oneOf terms hne u r.taken r.rest).mp
      ⟨r, List.mem_of_mem_head? hhead, rfl, rfl⟩

/-- **Every occurrence starts inside a match**, if none of the terms is empty. -/
theorem exists_match_over (terms : List String) (hterms : "" ∉ terms) (term : String) (hterm : term ∈ terms)
    (before part after : String) (h : Occurs term before part after) :
    ∃ m ∈ (whole (oneOf terms)).matchesIn (before ++ part ++ after),
      m.offset ≤ before.utf8ByteSize ∧ before.utf8ByteSize < m.offset + m.text.utf8ByteSize := by
  have hne := List.ne_nil_of_mem hterm
  -- some term is taken where the occurrence starts, and none of them takes nothing
  obtain ⟨r', hr', -, -⟩ := (mem_runs_whole_oneOf terms hne before.toList part.toList after.toList).mpr
    ⟨term, hterm, by simpa only [String.ofList_toList] using h⟩
  obtain ⟨r, rs, hruns⟩ := List.exists_cons_of_ne_nil (List.ne_nil_of_mem hr')
  have hr : r.taken ≠ [] := by
    have hmem : r ∈ (whole (oneOf terms)).runs (lastOf none before.toList)
        (part.toList ++ after.toList) := by
      rw [hruns]
      exact List.mem_cons_self
    rw [mem_runs_whole, mem_runs_oneOf terms hne] at hmem
    obtain ⟨⟨term', hterm', hlit⟩, -, -⟩ := hmem
    refine ((mem_runs_lit term' _ _ r).mp hlit).1.ne_nil ?_
    intro hnil
    rw [String.toList_eq_nil_iff.mp hnil] at hterm'
    exact hterms hterm'
  have htext : (before ++ part ++ after).toList = before.toList ++ (part.toList ++ after.toList) := by
    simp only [String.toList_append, List.append_assoc]
  obtain ⟨x, y, r'', hxy, hr'', hlength, hm⟩ := (finds_matchesIn _ _).reaches before.toList _ htext r
    (by rw [hruns]; rfl) hr
  -- the match that reaches over the start of the occurrence takes all of the text up to there, and more
  obtain ⟨w, hw⟩ : y <+: r''.taken :=
    List.prefix_of_prefix_length_le ⟨_, rfl⟩ ⟨r''.rest, taken_append_rest _ _ _ r'' hr''⟩
      (Nat.le_of_lt hlength)
  have hbefore : before.utf8ByteSize = utf8Len x + utf8Len y := by
    rw [← String.utf8Len_toList, hxy, String.utf8Len_append]
  have hwpos : 0 < utf8Len w := by
    refine Nat.pos_of_ne_zero (mt String.utf8Len_eq_zero.mp ?_)
    rintro rfl
    rw [← hw, List.append_nil] at hlength
    exact Nat.lt_irrefl _ hlength
  refine ⟨_, hm, ?_, ?_⟩
  · simp only [Run.toMatch]
    omega
  · simp only [Run.toMatch, String.utf8ByteSize_ofList, ← hw, String.utf8Len_append]
    omega

/-! ## Texts with an occurrence -/

/-- Terms have a run at some place of a text, with some property of what is left, exactly where one of them
occurs before such a rest. -/
theorem exists_run_whole_oneOf_iff (terms : List String) (hne : terms ≠ []) (text : String)
    (property : List Char → Prop) :
    (∃ u v, text.toList = u ++ v
        ∧ ∃ r ∈ (whole (oneOf terms)).runs (lastOf none u) v, property r.rest)
      ↔ ∃ term ∈ terms, ∃ before part after, text = before ++ part ++ after
          ∧ Occurs term before part after ∧ property after.toList := by
  constructor
  · rintro ⟨u, v, htext, r, hr, hrest⟩
    have hv := taken_append_rest _ _ _ r hr
    obtain ⟨term, hterm, hoccurs⟩ :=
      (mem_runs_whole_oneOf terms hne u r.taken r.rest).mp ⟨r, by rwa [hv], rfl, rfl⟩
    exact ⟨term, hterm, _, _, _, eq_append_of_toList text _ _ _ (by rwa [hv]), hoccurs,
      by rwa [String.toList_ofList]⟩
  · rintro ⟨term, hterm, before, part, after, rfl, hoccurs, hrest⟩
    obtain ⟨r, hr, -, hafter⟩ :=
      (mem_runs_whole_oneOf terms hne before.toList part.toList after.toList).mpr
        ⟨term, hterm, by simpa only [String.ofList_toList] using hoccurs⟩
    exact ⟨before.toList, _, by simp only [String.toList_append, List.append_assoc], r, hr, by rwa [hafter]⟩

/-- A text has a term as a whole word: the term occurs in some part of it. -/
def HasWhole (text term : String) : Prop :=
  ∃ before part after, text = before ++ part ++ after ∧ Occurs term before part after

/-- **Terms occur in a text exactly where a scan for them finds one.** -/
theorem occursIn_whole_oneOf (terms : List String) (hne : terms ≠ []) (text : String) :
    (whole (oneOf terms)).occursIn text ↔ ∃ term ∈ terms, HasWhole text term := by
  have hmem : ∀ rs : List Run, rs ≠ [] ↔ ∃ r, r ∈ rs := by simp [List.eq_nil_iff_forall_not_mem]
  rw [occursIn_iff_runs]
  simpa only [hmem, and_true, HasWhole] using exists_run_whole_oneOf_iff terms hne text fun _ => True

/-- A term occurs in a text exactly where a scan for it finds it. -/
theorem occursIn_whole_lit_iff (term text : String) :
    (whole (lit term)).occursIn text ↔ HasWhole text term := by
  have hsingle : lit term = oneOf [term] := rfl
  rw [hsingle, occursIn_whole_oneOf [term] (List.cons_ne_nil _ _)]
  simp

instance (text term : String) : Decidable (HasWhole text term) :=
  decidable_of_iff _ (occursIn_whole_lit_iff term text)

end TextToSql.Pattern
