import Mathlib.Data.List.Forall2
import TextToSql.Proofs.Pattern.Place
import TextToSql.Proofs.Unicode.CaseFold

/-!
# Whole words are found

A scan goes on behind its last match, so a word can be missed only if a match that starts before it
reaches into it. A match of texts without spaces cannot: it would have to hold the space before the word.
And where the word itself is tried, no shorter or longer text ends at a word boundary.

* `covers_of_runs` : where a pattern takes something, a match covers the place;
* `mem_runs_whole` : the runs between word boundaries;
* `exists_match_of_word` : one of several texts that stands between spaces is matched as it stands;
* `occursIn_whole_lit` : a phrase that stands between spaces is found.
-/

namespace TextToSql.Pattern

open Unicode

/-! ## No place is lost -/

/-- A match covers the place between two parts of a text: it starts in the first part, or where that ends,
and reaches beyond the end. -/
def Covers (p : Pattern) (before : Option Char) (found : List Match) (u v : List Char) : Prop :=
  ∃ x y, u = x ++ y ∧ ∃ r ∈ p.runs (lastOf before x) (y ++ v), y.length < r.taken.length
    ∧ ∃ m ∈ found, m.text = String.ofList r.taken

/-- **A match covers every place where the pattern takes something.** It is the match at the place, or
one from an earlier place that reaches beyond it. -/
theorem covers_of_runs (p : Pattern) (text : String) (u v : List Char) (htext : text.toList = u ++ v)
    (r : Run) (rs : List Run) (hruns : p.runs (lastOf none u) v = r :: rs) (hne : r.taken ≠ []) :
    p.Covers none (p.matchesIn text) u v := by
  obtain ⟨x, y, r', hxy, hr', hlength, hm⟩ :=
    (finds_matchesIn p text).reaches u v htext r (by rw [hruns]; rfl) hne
  exact ⟨x, y, hxy, r', hr', hlength, _, hm, rfl⟩

/-! ## Texts up to case -/

/-- What a text takes is equal to it up to case. -/
theorem forall₂_of_dropText? (t s taken rest : List Char) (h : dropText? t s = some (taken, rest)) :
    List.Forall₂ (fun a b => sameFold a b) t taken := by
  induction t generalizing s taken with
  | nil =>
      simp only [dropText?, Option.some.injEq, Prod.mk.injEq] at h
      rw [← h.1]
      exact List.Forall₂.nil
  | cons a t ih =>
      cases s with
      | nil => cases h
      | cons c s =>
          rw [dropText?] at h
          split at h
          · next hfold =>
              obtain ⟨⟨taken', rest'⟩, hrec, heq⟩ := Option.map_eq_some_iff.mp h
              simp only [Prod.mk.injEq] at heq
              obtain ⟨rfl, rfl⟩ := heq
              exact List.Forall₂.cons hfold (ih s taken' hrec)
          · cases h

/-- A text takes itself. -/
theorem dropText?_append_self (t rest : List Char) : dropText? t (t ++ rest) = some (t, rest) := by
  induction t with
  | nil => rfl
  | cons c t ih =>
      have hfold : sameFold c c := beq_self_eq_true _
      rw [List.cons_append, dropText?, if_pos hfold, ih]
      rfl

/-- A text without spaces takes none: no letter case hides a space. -/
theorem space_not_mem_taken (t taken : List Char)
    (h : List.Forall₂ (fun a b => sameFold a b) t taken) (ht : ' ' ∉ t) : ' ' ∉ taken := by
  induction h with
  | nil => exact List.not_mem_nil
  | cons hfold _ ih =>
      rw [List.mem_cons, not_or] at ht ⊢
      refine ⟨?_, ih ht.2⟩
      rintro rfl
      exact ht.1 (eq_of_foldChar_eq _ ' ' (by decide) (by decide) (beq_iff_eq.mp hfold)).symm

/-! ## Runs -/

/-- The last character that a run has taken, if any, stands before its end. -/
theorem lastOf_of_ne_nil (before : Option Char) (taken : List Char) (h : taken ≠ []) :
    lastOf before taken = taken.getLast? := by
  rw [lastOf, List.getLast?_eq_some_getLast h]
  rfl

/-- The runs of the first of several texts are those of the texts. -/
theorem mem_runs_oneOf (texts : List String) (hne : texts ≠ []) (before : Option Char)
    (s : List Char) (r : Run) :
    r ∈ (oneOf texts).runs before s ↔ ∃ text ∈ texts, r ∈ (lit text).runs before s := by
  induction texts with
  | nil => exact absurd rfl hne
  | cons text texts ih =>
      cases texts with
      | nil => simp [oneOf, firstOf]
      | cons text' texts =>
          have hcons : (oneOf (text :: text' :: texts)).runs before s
              = (lit text).runs before s ++ (oneOf (text' :: texts)).runs before s := rfl
          rw [hcons, List.mem_append, ih (List.cons_ne_nil _ _), List.exists_mem_cons_iff _ text]

/-- The runs between word boundaries are those that start and end at one. -/
theorem mem_runs_whole (p : Pattern) (before : Option Char) (s : List Char) (r : Run) :
    r ∈ (whole p).runs before s ↔ r ∈ p.runs before s ∧ isBoundary before s.head?
      ∧ isBoundary (lastOf before r.taken) r.rest.head? := by
  have hwhole : (whole p).runs before s
      = if isBoundary before s.head? then
          (p.runs before s).flatMap fun r =>
            if isBoundary (lastOf before r.taken) r.rest.head? then [r] else []
        else [] := by
    show (seq (seq boundary p) boundary).runs before s = _
    by_cases hstart : isBoundary before s.head?
    · simp only [runs, if_pos hstart, List.flatMap_singleton, List.flatMap_map]
      congr 1
      funext r'
      split <;> simp_all [Run.followedBy, lastOf]
    · simp [runs, hstart]
  rw [hwhole]
  split
  · next hstart =>
      simp only [List.mem_flatMap, List.mem_ite_nil_right, List.mem_singleton]
      constructor
      · rintro ⟨r', hr', hend, rfl⟩
        exact ⟨hr', hstart, hend⟩
      · rintro ⟨hr, -, hend⟩
        exact ⟨r, hr, hend, rfl⟩
  · next hstart => simp [hstart]

/-- What one of several texts without spaces takes between word boundaries has no space either, and
ends at a word boundary. -/
theorem taken_of_mem_runs_whole_oneOf (texts : List String) (hne : texts ≠ [])
    (htexts : ∀ text ∈ texts, text ≠ "" ∧ ' ' ∉ text.toList) (before : Option Char) (s : List Char)
    (r : Run) (h : r ∈ (whole (oneOf texts)).runs before s) :
    r.taken ≠ [] ∧ ' ' ∉ r.taken ∧ isBoundary r.taken.getLast? r.rest.head? := by
  obtain ⟨hr, -, hend⟩ := (mem_runs_whole _ before s r).mp h
  obtain ⟨text, htext, hr⟩ := (mem_runs_oneOf texts hne before s r).mp hr
  obtain ⟨htextne, hspace⟩ := htexts text htext
  rw [lit, runs] at hr
  split at hr
  · cases hr
  · next taken rest hdrop =>
      obtain rfl := List.mem_singleton.mp hr
      have hfold := forall₂_of_dropText? text.toList s taken rest hdrop
      have htaken : taken ≠ [] := by
        rintro rfl
        cases hlist : text.toList with
        | nil => exact htextne (String.toList_eq_nil_iff.mp hlist)
        | cons c cs =>
            rw [hlist] at hfold
            cases hfold
      refine ⟨htaken, space_not_mem_taken _ _ hfold hspace, ?_⟩
      rwa [lastOf_of_ne_nil before taken htaken] at hend

/-! ## Words between spaces -/

/-- A part without spaces that starts where a word starts and ends at a word boundary is the word, if
the word ends at a space or at an end of the text. -/
theorem eq_word_of_taken (taken rest word after : List Char)
    (heq : taken ++ rest = word ++ after) (hne : taken ≠ []) (hspace : ' ' ∉ taken)
    (hend : isBoundary taken.getLast? rest.head?) (hword : ∀ c ∈ word, isWordChar c)
    (hafter : ∀ c ∈ after.head?, c = ' ') : taken = word := by
  rcases List.append_eq_append_iff.mp heq with ⟨extra, hword', hrest⟩ | ⟨extra, htaken, hafter'⟩
  -- it ends within the word: between two word characters there is no boundary
  · cases extra with
    | nil => simpa using hword'.symm
    | cons c extra =>
        have hlast : isWordChar (taken.getLast hne) :=
          hword _ (by rw [hword']; exact List.mem_append_left _ (List.getLast_mem hne))
        have hc : isWordChar c := hword c (by simp [hword'])
        simp [isBoundary, List.getLast?_eq_some_getLast hne, hrest, hc, hlast] at hend
  -- it goes on behind the word: it would have to take the space there
  · cases extra with
    | nil => simpa using htaken
    | cons c extra =>
        have hc : c = ' ' := hafter c (by simp [hafter'])
        exact absurd (by simp [htaken, hc]) hspace

/-- A space, or an end of the text, is no word character. -/
theorem any_isWordChar_of_space (c : Option Char) (hc : ∀ d ∈ c, d = ' ') :
    c.any isWordChar = false := by
  cases c with
  | none => rfl
  | some d =>
      rw [hc d rfl]
      decide +kernel

/-- What stands between spaces and starts and ends with a word character is taken between word
boundaries when it is taken at all. -/
theorem mem_runs_whole_of_spaces (p : Pattern) (taken before after : List Char) (hne : taken ≠ [])
    (hrun : ⟨taken, after, []⟩ ∈ p.runs (lastOf none before) (taken ++ after))
    (hfirst : ∀ c ∈ taken.head?, isWordChar c) (hlast : ∀ c ∈ taken.getLast?, isWordChar c)
    (hbefore : ∀ c ∈ before.getLast?, c = ' ') (hafter : ∀ c ∈ after.head?, c = ' ') :
    ⟨taken, after, []⟩ ∈ (whole p).runs (lastOf none before) (taken ++ after) := by
  have hstart : (taken ++ after).head?.any isWordChar := by
    rw [List.head?_append_of_ne_nil _ hne, List.head?_eq_some_head hne]
    exact hfirst _ (List.head?_eq_some_head hne)
  have hend : taken.getLast?.any isWordChar := by
    rw [List.getLast?_eq_some_getLast hne]
    exact hlast _ (List.getLast?_eq_some_getLast hne)
  rw [mem_runs_whole]
  refine ⟨hrun, ?_, ?_⟩
  · rw [isBoundary, lastOf, Option.or_none, any_isWordChar_of_space _ hbefore, hstart]
    rfl
  · rw [isBoundary, lastOf_of_ne_nil _ _ hne, hend, any_isWordChar_of_space _ hafter]
    rfl

/-- A text takes itself where it stands. -/
theorem runs_lit_append (text : String) (before : Option Char) (after : List Char) :
    (lit text).runs before (text.toList ++ after) = [⟨text.toList, after, []⟩] := by
  rw [lit, runs, dropText?_append_self]

/-- Where a word stands between spaces, it is taken when it is one of the texts. -/
theorem mem_runs_whole_of_word (texts : List String) (word : String) (hmem : word ∈ texts)
    (hne : word.toList ≠ []) (hword : ∀ c ∈ word.toList, isWordChar c) (before after : List Char)
    (hbefore : ∀ c ∈ before.getLast?, c = ' ') (hafter : ∀ c ∈ after.head?, c = ' ') :
    ⟨word.toList, after, []⟩
      ∈ (whole (oneOf texts)).runs (lastOf none before) (word.toList ++ after) := by
  refine mem_runs_whole_of_spaces _ _ before after hne ?_ ?_ ?_ hbefore hafter
  · rw [mem_runs_oneOf texts (List.ne_nil_of_mem hmem)]
    refine ⟨word, hmem, ?_⟩
    rw [runs_lit_append]
    exact List.mem_singleton_self _
  · exact fun c hc => hword c (List.mem_of_mem_head? hc)
  · exact fun c hc => hword c (List.mem_of_mem_getLast? hc)

/-- **A word that stands between spaces is matched.** If one of several texts without spaces stands in a
text between spaces, or at an end, then one of the matches is that text. -/
theorem exists_match_of_word (texts : List String)
    (htexts : ∀ text ∈ texts, text ≠ "" ∧ ' ' ∉ text.toList) (word : String) (hmem : word ∈ texts)
    (hword : ∀ c ∈ word.toList, isWordChar c) (text : String) (before after : List Char)
    (htext : text.toList = before ++ word.toList ++ after) (hbefore : ∀ c ∈ before.getLast?, c = ' ')
    (hafter : ∀ c ∈ after.head?, c = ' ') :
    ∃ m ∈ (whole (oneOf texts)).matchesIn text, m.text = word := by
  have hne : texts ≠ [] := List.ne_nil_of_mem hmem
  have hwordne : word.toList ≠ [] := by
    intro hnil
    exact (htexts word hmem).1 (String.toList_eq_nil_iff.mp hnil)
  have hrun := mem_runs_whole_of_word texts word hmem hwordne hword before after hbefore hafter
  obtain ⟨r, rs, hruns⟩ := List.exists_cons_of_ne_nil (List.ne_nil_of_mem hrun)
  have hr : r.taken ≠ [] :=
    (taken_of_mem_runs_whole_oneOf texts hne htexts _ _ r (by rw [hruns]; exact List.mem_cons_self)).1
  rw [List.append_assoc] at htext
  obtain ⟨x, y, hxy, r', hr', hlen, m, hm, hmtext⟩ :=
    covers_of_runs (whole (oneOf texts)) text before _ htext r rs hruns hr
  obtain ⟨hne', hspace, hend⟩ := taken_of_mem_runs_whole_oneOf texts hne htexts _ _ r' hr'
  have htaken := taken_append_rest _ _ _ r' hr'
  -- a match from before the word would hold the space before it
  have hy : y = [] := by
    by_contra hy
    have hlasty : y.getLast hy = ' ' := by
      refine hbefore _ ?_
      rw [hxy, List.getLast?_append_of_ne_nil _ hy, List.getLast?_eq_some_getLast hy]
      rfl
    have hstart : y <+: r'.taken :=
      List.prefix_of_prefix_length_le ⟨_, rfl⟩ ⟨r'.rest, htaken⟩ (Nat.le_of_lt hlen)
    refine hspace (hstart.subset ?_)
    rw [← hlasty]
    exact List.getLast_mem hy
  subst hy
  refine ⟨m, hm, ?_⟩
  rw [hmtext, eq_word_of_taken r'.taken r'.rest word.toList after htaken hne' hspace hend hword hafter,
    String.ofList_toList]

/-- **A phrase that stands between spaces is found** as a whole, if it starts and ends with a word
character. -/
theorem occursIn_whole_lit (phrase text : String) (before after : List Char)
    (htext : text.toList = before ++ phrase.toList ++ after) (hne : phrase.toList ≠ [])
    (hfirst : ∀ c ∈ phrase.toList.head?, isWordChar c)
    (hlast : ∀ c ∈ phrase.toList.getLast?, isWordChar c)
    (hbefore : ∀ c ∈ before.getLast?, c = ' ') (hafter : ∀ c ∈ after.head?, c = ' ') :
    (whole (lit phrase)).occursIn text := by
  have hrun : ⟨phrase.toList, after, []⟩
      ∈ (whole (lit phrase)).runs (lastOf none before) (phrase.toList ++ after) := by
    refine mem_runs_whole_of_spaces _ _ before after hne ?_ hfirst hlast hbefore hafter
    rw [runs_lit_append]
    exact List.mem_singleton_self _
  rw [List.append_assoc] at htext
  exact (occursIn_iff_runs _ text).mpr ⟨before, _, htext, List.ne_nil_of_mem hrun⟩

end TextToSql.Pattern
