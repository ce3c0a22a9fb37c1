import TextToSql.Pattern.Rule
import TextToSql.Proofs.Pattern.Captures
import TextToSql.Proofs.Pattern.Whole
import TextToSql.Proofs.Text.Lower

/-!
# Patterns in a text of words

A pattern that starts with a captured word and white space can be tried in a text of words word by word: it
matches at a word if the rest of it matches behind the space, and else it matches nowhere in the word. So
what it captures in a text is found by going through the words of the text, and the texts in a pattern are
compared with words of the text one by one.

* `captured_of_skipped` : a word behind which the rest of the pattern does not match is passed over;
* `captured_of_taken` : a word behind which it matches is captured, and the search goes on behind the match;
* `exists_head_of_captured` : what starts the captured parts of a pattern;
* `mem_runs_phrase` : a phrase in a pattern takes words that are equal to its own up to case.
-/

namespace TextToSql

open Unicode

namespace Text

/-! ## Texts of words -/

/-- What stands behind a word of a text: the further words, each behind a space. -/
def following (ws : List (List Char)) : List Char := ws.flatMap (' ' :: ·)

/-- The text of words that are separated by spaces. -/
def spaced (ws : List (List Char)) : List Char := [' '].intercalate ws

/-- Words of a text: they are not empty and have no white space. -/
def AreWords (ws : List (List Char)) : Prop := ∀ w ∈ ws, w ≠ [] ∧ WhiteFree w

@[simp]
theorem following_nil : following [] = [] := rfl

@[simp]
theorem following_cons (w : List Char) (ws : List (List Char)) :
    following (w :: ws) = ' ' :: (w ++ following ws) := rfl

@[simp]
theorem spaced_nil : spaced [] = [] := rfl

/-- A text of words starts with the first one. -/
@[simp]
theorem spaced_cons (w : List Char) (ws : List (List Char)) : spaced (w :: ws) = w ++ following ws := by
  induction ws generalizing w with
  | nil => simp [spaced]
  | cons w' ws ih =>
      have hrest : [' '].intercalate (w' :: ws) = w' ++ following ws := ih w'
      rw [spaced, List.intercalate_cons_cons, hrest, following_cons]
      simp

/-- What stands behind a word starts with a space, if anything does. -/
theorem following_of_ne_nil (ws : List (List Char)) (h : ws ≠ []) : following ws = ' ' :: spaced ws := by
  obtain ⟨w, ws, rfl⟩ := List.exists_cons_of_ne_nil h
  rw [following_cons, spaced_cons]

/-- A word character is no white space. -/
theorem isWhite_of_isWordChar (c : Char) (h : isWordChar c) : isWhite c = false := by
  by_contra hwhite
  have hnone :=
    isWhite_elim (p := fun c => isWordChar c = false) (by decide +kernel) c (by simpa using hwhite)
  rw [hnone] at h
  cases h

/-- The words of a text are words. -/
theorem areWords_words (s : List Char) : AreWords (words s) := fun w hw =>
  ⟨words_ne_nil s w hw, words_white_free s w hw⟩

/-- Two groups of words are separated by a space. -/
theorem spaced_append (ws ws' : List (List Char)) (hws : ws ≠ []) (hws' : ws' ≠ []) :
    spaced (ws ++ ws') = spaced ws ++ ' ' :: spaced ws' := by
  rw [spaced, intercalate_append _ _ _ hws hws', List.append_assoc, List.singleton_append]
  rfl

variable {ws : List (List Char)}

/-- A text of words does not start with white space. -/
theorem AreWords.head?_spaced (h : AreWords ws) : ∀ c ∈ (spaced ws).head?, isWhite c = false := by
  intro c hc
  cases ws with
  | nil => cases hc
  | cons w ws =>
      obtain ⟨hne, hfree⟩ := h w List.mem_cons_self
      rw [spaced_cons, List.head?_append_of_ne_nil _ hne] at hc
      exact hfree c (List.mem_of_mem_head? hc)

/-- A part of a text up to a white space that holds no space itself is the first word. -/
theorem eq_of_append_eq_following (taken rest w : List Char) (h : taken ++ rest = w ++ following ws)
    (hspace : ' ' ∉ taken) (hrest : ∃ c ∈ rest.head?, isWhite c) (hw : WhiteFree w) :
    taken = w ∧ rest = following ws := by
  rcases List.append_eq_append_iff.mp h with ⟨extra, rfl, rfl⟩ | ⟨extra, rfl, hfollowing⟩
  -- it ends within the word, where there is no white space
  · cases extra with
    | nil => simp
    | cons c extra =>
        obtain ⟨d, hd, hwhite⟩ := hrest
        obtain rfl : c = d := by simpa using hd
        have hfree := hw c (by simp)
        rw [hfree] at hwhite
        cases hwhite
  -- it goes on behind the word, with a space
  · cases extra with
    | nil => simpa using hfollowing.symm
    | cons c extra =>
        cases ws with
        | nil => cases hfollowing
        | cons w' ws =>
            rw [following_cons, List.cons_append] at hfollowing
            obtain ⟨rfl, -⟩ := List.cons.inj hfollowing
            exact absurd (by simp) hspace

end Text

open Text

namespace Pattern

/-! ## What is captured in a text -/

/-- The captured parts of the matches of a pattern in a text. -/
def captured (p : Pattern) (s : List Char) : List (List String) :=
  (p.matchesFrom none 0 0 false s).map Match.captures

variable {p : Pattern} {cls : CharClass}

/-- A pattern that starts with a run has the first of its runs as match. -/
theorem matchAt?_of_leadingClass? (hp : p.leadingClass? = some cls) (before : Option Char)
    (justEnded : Bool) (s : List Char) : p.matchAt? before justEnded s = (p.runs before s).head? := by
  rw [matchAt?]
  cases hruns : p.runs before s with
  | nil => rfl
  | cons r rs =>
      have hne := taken_ne_nil_of_leadingClass? p cls hp before s r (by simp [hruns])
      simp [hne]

/-- A pattern that starts with a run does not look at the character before it. -/
theorem runs_of_leadingClass? (hp : p.leadingClass? = some cls) (before before' : Option Char)
    (s : List Char) : p.runs before s = p.runs before' s := by
  induction p with
  | empty => cases hp
  | literal text => cases hp
  | run cls' => rfl
  | boundary => cases hp
  | seq first second ih₁ _ =>
      have hfirst : first.leadingClass? = some cls := hp
      rw [runs, runs, ih₁ hfirst]
      refine List.flatMap_congr fun r hr => ?_
      have hne := taken_ne_nil_of_leadingClass? first cls hfirst before' s r hr
      rw [lastOf_of_ne_nil before _ hne, lastOf_of_ne_nil before' _ hne]
  | alt first second _ _ => cases hp
  | capture inner ih => rw [runs, runs, ih hp]

/-- A pattern that starts with a run matches where a character of the class stands only. -/
theorem exists_head_of_mem_runs (hp : p.leadingClass? = some cls) (before : Option Char) (s : List Char)
    (r : Run) (h : r ∈ p.runs before s) : ∃ c ∈ s.head?, cls.contains c := by
  by_contra hhead
  have hnone : ∀ c ∈ s.head?, cls.contains c = false := fun c hc =>
    Bool.eq_false_iff.mpr fun hcls => hhead ⟨c, hc, hcls⟩
  rw [runs_eq_nil_of_leadingClass? p cls hp before s hnone] at h
  cases h

/-- What is captured from a place on does not depend on how the place is described. -/
theorem map_captures_matchesFrom_congr (hp : p.leadingClass? = some cls) (before before' : Option Char)
    (offset offset' skip : Nat) (justEnded justEnded' : Bool) (s : List Char) :
    (p.matchesFrom before offset skip justEnded s).map Match.captures
      = (p.matchesFrom before' offset' skip justEnded' s).map Match.captures := by
  induction s generalizing before before' offset offset' skip justEnded justEnded' with
  | nil =>
      have hnil := fun before => runs_eq_nil_of_leadingClass? p cls hp before [] (by simp)
      cases skip <;> simp [matchesFrom, matchAt?_of_runs_eq_nil, hnil]
  | cons c s ih =>
      cases skip with
      | succ n => exact ih _ _ _ _ _ _ _
      | zero =>
          rw [matchesFrom, matchesFrom, matchAt?_of_leadingClass? hp, matchAt?_of_leadingClass? hp,
            runs_of_leadingClass? hp before before']
          cases (p.runs before' (c :: s)).head? with
          | none => exact ih _ _ _ _ _ _ _
          | some r =>
              show r.captures.map String.ofList :: _ = r.captures.map String.ofList :: _
              exact congrArg _ (ih _ _ _ _ _ _ _)

/-- What is captured behind the end of a match is what is captured in the text from there on. -/
theorem map_captures_matchesFrom_skip (hp : p.leadingClass? = some cls) (before : Option Char)
    (offset : Nat) (justEnded : Bool) (taken rest : List Char) :
    (p.matchesFrom before offset taken.length justEnded (taken ++ rest)).map Match.captures
      = p.captured rest := by
  induction taken generalizing before offset justEnded with
  | nil => exact map_captures_matchesFrom_congr hp _ _ _ _ _ _ _ _
  | cons c taken ih => exact ih _ _ _

/-- Nothing is captured in an empty text. -/
theorem captured_nil (hp : p.leadingClass? = some cls) : p.captured [] = [] := by
  have hnil := runs_eq_nil_of_leadingClass? p cls hp none [] (by simp)
  simp [captured, matchesFrom, matchAt?_of_runs_eq_nil, hnil]

/-- Nothing is captured where a pattern does not match. -/
theorem captured_cons (hp : p.leadingClass? = some cls) (c : Char) (s : List Char)
    (h : p.runs none (c :: s) = []) : p.captured (c :: s) = p.captured s := by
  rw [captured, matchesFrom, matchAt?_of_runs_eq_nil p _ _ _ h]
  exact map_captures_matchesFrom_congr hp _ _ _ _ _ _ _ _

/-- Where a pattern matches, its parts are captured, and the search goes on behind the match. -/
theorem captured_of_runs (hp : p.leadingClass? = some cls) (s : List Char) (r : Run) (rs : List Run)
    (h : p.runs none s = r :: rs) :
    p.captured s = r.captures.map String.ofList :: p.captured r.rest := by
  have hr : r ∈ p.runs none s := by
    rw [h]
    exact List.mem_cons_self
  obtain ⟨c, taken, htaken⟩ :=
    List.exists_cons_of_ne_nil (taken_ne_nil_of_leadingClass? p cls hp none s r hr)
  have hs := taken_append_rest p none s r hr
  rw [htaken, List.cons_append] at hs
  subst hs
  have hat : p.matchAt? none false (c :: (taken ++ r.rest)) = some r := by
    rw [matchAt?_of_leadingClass? hp, h]
    rfl
  rw [captured, matchesFrom, hat]
  show r.captures.map String.ofList :: _ = _
  rw [htaken]
  exact congrArg _ (map_captures_matchesFrom_skip hp _ _ _ _ _)

/-- What is captured depends on the runs of a pattern only. -/
theorem captured_congr {p q : Pattern} (h : ∀ before s, p.runs before s = q.runs before s)
    (s : List Char) : p.captured s = q.captured s := by
  have hat : ∀ before justEnded s, p.matchAt? before justEnded s = q.matchAt? before justEnded s := by
    intro before justEnded s
    rw [matchAt?, matchAt?, h]
  have hmatches : ∀ before offset skip justEnded s, p.matchesFrom before offset skip justEnded s
      = q.matchesFrom before offset skip justEnded s := by
    intro before offset skip justEnded s
    induction s generalizing before offset skip justEnded with
    | nil => cases skip <;> simp [matchesFrom, hat]
    | cons c s ih => cases skip <;> simp only [matchesFrom, hat, ih]
  rw [captured, captured, hmatches]

/-! ## White space in a pattern -/

variable {q : Pattern} {before : Option Char} {ws : List (List Char)}

/-- A run of a class is taken up to where it ends. -/
theorem runs_run (cls : CharClass) (before : Option Char) (w v : List Char) (hw : IsRun cls w)
    (hv : ∀ c ∈ v.head?, cls.contains c = false) : (run cls).runs before (w ++ v) = [⟨w, v, []⟩] := by
  obtain ⟨hne, hclass⟩ := hw
  obtain ⟨c, w, rfl⟩ := List.exists_cons_of_ne_nil hne
  obtain ⟨hc, hclass⟩ := List.forall_mem_cons.mp hclass
  obtain ⟨htake, hdrop⟩ := Text.span_append cls.contains w v hclass hv
  rw [List.cons_append, runs, takeRun?, if_pos hc, htake, hdrop]

/-- White space and a pattern behind it start with a run. -/
theorem leadingClass?_spaces (q : Pattern) : (spaces ++ q).leadingClass? = some .space := rfl

/-- White space and a pattern behind it match where the pattern matches behind a space. -/
theorem runs_spaces_append (q : Pattern) (before : Option Char) (v : List Char)
    (hv : ∀ c ∈ v.head?, isWhite c = false) :
    (spaces ++ q).runs before (' ' :: v)
      = (q.runs (some ' ') v).map (Run.followedBy ⟨[' '], v, []⟩) := by
  have hwhite : IsRun .space [' '] := ⟨List.cons_ne_nil _ _, List.forall_mem_singleton.mpr (by decide)⟩
  have hspace : spaces.runs before (' ' :: v) = [⟨[' '], v, []⟩] := runs_run .space before [' '] v hwhite hv
  show (seq spaces q).runs before (' ' :: v) = _
  rw [runs, hspace, List.flatMap_singleton]
  rfl

/-- Behind a word of a text, white space and a pattern match only if the pattern matches at the next word. -/
theorem mem_runs_spaces_following (hws : AreWords ws) (r : Run)
    (h : r ∈ (spaces ++ q).runs before (following ws)) :
    ws ≠ [] ∧ ∃ r' ∈ q.runs (some ' ') (spaced ws), r.captures = r'.captures ∧ r.rest = r'.rest := by
  have hne : ws ≠ [] := by
    rintro rfl
    obtain ⟨c, hc, -⟩ := exists_head_of_mem_runs (leadingClass?_spaces q) before _ r h
    cases hc
  rw [following_of_ne_nil ws hne, runs_spaces_append q before _ hws.head?_spaced] at h
  obtain ⟨r', hr', rfl⟩ := List.mem_map.mp h
  exact ⟨hne, r', hr', rfl, rfl⟩

/-! ## A captured word -/

/-- A captured run of a class and a pattern behind white space. -/
def term (cls : CharClass) (q : Pattern) : Pattern := capture (.run cls) ++ (spaces ++ q)

/-- It starts with a run. -/
theorem leadingClass?_term (cls : CharClass) (q : Pattern) : (term cls q).leadingClass? = some cls := rfl

/-- Within a word, a captured run and a pattern behind white space match only if the class takes the word to
its end and the pattern matches at the next word. -/
theorem mem_runs_term (hcls : cls.contains ' ' = false) (w : List Char) (hw : WhiteFree w)
    (hws : AreWords ws) (r : Run) (h : r ∈ (term cls q).runs before (w ++ following ws)) :
    (∀ c ∈ w, cls.contains c) ∧ ws ≠ []
      ∧ ∃ r' ∈ q.runs (some ' ') (spaced ws), r.captures = w :: r'.captures ∧ r.rest = r'.rest := by
  obtain ⟨r₁, h₁, r₂, h₂, rfl⟩ := mem_runs_append.mp h
  obtain ⟨r₁, hrun, rfl⟩ := List.mem_map.mp h₁
  have htaken := taken_append_rest _ _ _ r₁ hrun
  have hclass : ∀ c ∈ r₁.taken, cls.contains c := (isRun_of_takes_run cls _ ⟨_, _, r₁, hrun, rfl⟩).2
  have hcaptures : r₁.captures = [] := yields_of_mem_runs _ _ _ r₁ hrun
  have hspace : ' ' ∉ r₁.taken := by
    intro hmem
    rw [hclass ' ' hmem] at hcls
    cases hcls
  obtain ⟨rfl, hrest⟩ := eq_of_append_eq_following r₁.taken r₁.rest w htaken hspace
    (exists_head_of_mem_runs (leadingClass?_spaces q) _ _ r₂ h₂) hw
  rw [Run.captured, hrest] at h₂
  obtain ⟨hne, r', hr', hcaptures', hrest'⟩ := mem_runs_spaces_following hws r₂ h₂
  refine ⟨hclass, hne, r', hr', ?_, hrest'⟩
  simp [Run.followedBy, Run.captured, hcaptures, hcaptures']

/-- A word that the class takes is captured where the pattern matches at the next word. -/
theorem runs_term (hcls : cls.contains ' ' = false) (w : List Char) (hw : IsRun cls w) (v : List Char)
    (hv : ∀ c ∈ v.head?, isWhite c = false) :
    (term cls q).runs before (w ++ ' ' :: v)
      = (q.runs (some ' ') v).map (Run.followedBy ⟨w ++ [' '], v, [w]⟩) := by
  have hspace : ∀ c ∈ (' ' :: v).head?, cls.contains c = false := by simpa using hcls
  have hcapture : (capture (run cls)).runs before (w ++ ' ' :: v) = [⟨w, ' ' :: v, [w]⟩] := by
    rw [runs, runs_run cls before w _ hw hspace]
    rfl
  show (seq (capture (run cls)) (spaces ++ q)).runs before _ = _
  rw [runs, hcapture, List.flatMap_singleton, runs_spaces_append q _ v hv, List.map_map]
  congr 1
  funext r
  simp [Run.followedBy]

/-! ## The search for captured words -/

/-- Between two words nothing is captured. -/
theorem captured_following (hcls : cls.contains ' ' = false) (ws : List (List Char)) :
    (term cls q).captured (following ws) = (term cls q).captured (spaced ws) := by
  by_cases hne : ws = []
  · rw [hne]
    rfl
  · rw [following_of_ne_nil ws hne]
    refine captured_cons (leadingClass?_term cls q) _ _ ?_
    exact runs_eq_nil_of_leadingClass? _ cls (leadingClass?_term cls q) _ _ (by simpa using hcls)

/-- **A word is passed over** if the pattern behind it does not match at the next word. -/
theorem captured_of_skipped (hcls : cls.contains ' ' = false) (w : List Char) (hw : WhiteFree w)
    (hws : AreWords ws) (h : ws ≠ [] → q.runs (some ' ') (spaced ws) = []) :
    (term cls q).captured (spaced (w :: ws)) = (term cls q).captured (spaced ws) := by
  rw [spaced_cons]
  induction w with
  | nil => exact captured_following hcls ws
  | cons c w ih =>
      obtain ⟨hc, hfree⟩ := List.forall_mem_cons.mp hw
      rw [← ih hfree, List.cons_append]
      refine captured_cons (leadingClass?_term cls q) _ _ (List.eq_nil_iff_forall_not_mem.mpr ?_)
      intro r hr
      rw [← List.cons_append] at hr
      obtain ⟨-, hne, r', hr', -⟩ := mem_runs_term hcls (c :: w) hw hws r hr
      rw [h hne] at hr'
      cases hr'

/-- **Words are passed over** if the pattern does not match behind any of them. -/
theorem captured_of_allSkipped (hcls : cls.contains ' ' = false) (w : List Char) (us ws : List (List Char))
    (hwords : AreWords (w :: (us ++ ws)))
    (h : ∀ us', us' <:+ us → us' ++ ws ≠ [] → q.runs (some ' ') (spaced (us' ++ ws)) = []) :
    (term cls q).captured (spaced (w :: (us ++ ws))) = (term cls q).captured (spaced ws) := by
  obtain ⟨⟨-, hw⟩, hrest⟩ := List.forall_mem_cons.mp hwords
  rw [captured_of_skipped hcls w hw hrest (h us List.suffix_rfl)]
  clear hwords hw
  induction us with
  | nil => rfl
  | cons u us ih =>
      rw [List.cons_append] at hrest ⊢
      obtain ⟨⟨-, hu⟩, hus⟩ := List.forall_mem_cons.mp hrest
      have hsuffix : ∀ us', us' <:+ us → us' ++ ws ≠ [] → q.runs (some ' ') (spaced (us' ++ ws)) = [] :=
        fun us' hus' => h us' (hus'.trans (List.suffix_cons u us))
      rw [captured_of_skipped hcls u hu hus (hsuffix us List.suffix_rfl)]
      exact ih hsuffix hus

/-- **A word is captured** if the pattern behind it matches at the next word. -/
theorem captured_of_taken (hcls : cls.contains ' ' = false) (w : List Char) (hw : IsRun cls w)
    (hws : AreWords ws) (hne : ws ≠ []) (r : Run) (rs : List Run)
    (h : q.runs (some ' ') (spaced ws) = r :: rs) :
    (term cls q).captured (spaced (w :: ws))
      = (w :: r.captures).map String.ofList :: (term cls q).captured r.rest := by
  rw [spaced_cons, following_of_ne_nil ws hne]
  have hruns : (term cls q).runs none (w ++ ' ' :: spaced ws) = _ :=
    runs_term hcls w hw (spaced ws) hws.head?_spaced
  rw [h, List.map_cons] at hruns
  rw [captured_of_runs (leadingClass?_term cls q) _ _ _ hruns]
  rfl

/-- The captured parts of each match start with a word of one kind, if the words that the rest of the pattern
matches behind are of this kind and it always stops between two words. -/
theorem exists_head_of_captured (hcls : cls.contains ' ' = false) (Kind : List Char → Prop)
    (hkind : ∀ w, Kind w → IsRun cls w) (ws : List (List Char)) (hws : AreWords ws)
    (h : ∀ pre w post, ws = pre ++ w :: post → ∀ r ∈ q.runs (some ' ') (spaced post),
      Kind w ∧ ∃ ws', ws' <:+ post ∧ r.rest = following ws') :
    ∀ cs ∈ (term cls q).captured (spaced ws), ∃ w rest, Kind w ∧ cs = String.ofList w :: rest := by
  -- on the number of words: the search goes on at the next word, or behind a match some words further on
  induction hlength : ws.length using Nat.strong_induction_on generalizing ws with
  | _ n ih =>
      have hsuffix : ∀ ws', ws' <:+ ws → ws'.length < n →
          ∀ cs ∈ (term cls q).captured (spaced ws'), ∃ w rest, Kind w ∧ cs = String.ofList w :: rest := by
        rintro ws' ⟨more, rfl⟩ hlt
        refine ih _ hlt ws' (fun w hw => hws w (List.mem_append_right _ hw)) ?_ rfl
        rintro pre w post rfl
        exact h (more ++ pre) w post (List.append_assoc _ _ _).symm
      intro cs hcs
      cases ws with
      | nil =>
          rw [spaced_nil, captured_nil (leadingClass?_term cls q)] at hcs
          cases hcs
      | cons w post =>
          obtain ⟨⟨-, hfree⟩, hpost⟩ := List.forall_mem_cons.mp hws
          rw [List.length_cons] at hlength
          cases hruns : q.runs (some ' ') (spaced post) with
          | nil =>
              rw [captured_of_skipped hcls w hfree hpost fun _ => hruns] at hcs
              exact hsuffix post (List.suffix_cons w post) (by omega) cs hcs
          | cons r rs =>
              obtain ⟨hw, ws', hws', hrest⟩ := h [] w post rfl r (by simp [hruns])
              by_cases hne : post = []
              · rw [captured_of_skipped hcls w hfree hpost (absurd hne)] at hcs
                exact hsuffix post (List.suffix_cons w post) (by omega) cs hcs
              · rw [captured_of_taken hcls w (hkind w hw) hpost hne r rs hruns, hrest,
                  captured_following hcls] at hcs
                rcases List.mem_cons.mp hcs with rfl | hcs
                · exact ⟨w, _, hw, rfl⟩
                · have hle := hws'.length_le
                  exact hsuffix ws' (hws'.trans (List.suffix_cons w post)) (by omega) cs hcs

/-! ## Phrases -/

/-- Two texts that are equal up to case. -/
def Folds (u t : List Char) : Prop := List.Forall₂ (fun a b => sameFold a b) u t

instance (u t : List Char) : Decidable (Folds u t) :=
  inferInstanceAs (Decidable (List.Forall₂ (fun a b => sameFold a b) u t))

/-- An ASCII digit is equal up to case to itself only. -/
theorem head?_of_folds (u w : List Char) (h : Folds u w) (c : Char) (hc : c ∈ w.head?) (hdigit : c.isDigit) :
    c ∈ u.head? := by
  have hdigits : ∀ n < 0x80, isPlainChar (Char.ofNat n) → (Char.ofNat n).isDigit →
      foldChar (Char.ofNat n) = Char.ofNat n ∧ (Char.ofNat n).toNat < 0x41 ∧ 0 < (Char.ofNat n).toNat := by
    decide +kernel
  obtain ⟨hfold, hlt, hpos⟩ :=
    isPlainChar_elim (p := fun c => c.isDigit → foldChar c = c ∧ c.toNat < 0x41 ∧ 0 < c.toNat) hdigits c
      (isPlainChar_of_isDigit c hdigit) hdigit
  cases h with
  | nil => cases hc
  | @cons a b u w hab _ =>
      obtain rfl : b = c := by simpa using hc
      have hsame : foldChar a = b := by rw [← hfold]; exact beq_iff_eq.mp hab
      rw [eq_of_foldChar_eq a b hlt hpos hsame]
      rfl

/-- A text in front of another one is taken first. -/
theorem dropText?_append_text (t t' s taken rest : List Char)
    (h : dropText? (t ++ t') s = some (taken, rest)) :
    ∃ taken₁ rest₁ taken₂, dropText? t s = some (taken₁, rest₁)
      ∧ dropText? t' rest₁ = some (taken₂, rest) ∧ taken = taken₁ ++ taken₂ := by
  induction t generalizing s taken with
  | nil => exact ⟨[], s, taken, rfl, h, rfl⟩
  | cons c t ih =>
      cases s with
      | nil => cases h
      | cons d s =>
          rw [List.cons_append, dropText?] at h
          split at h
          · next hfold =>
              obtain ⟨⟨taken', rest'⟩, hrec, heq⟩ := Option.map_eq_some_iff.mp h
              simp only [Prod.mk.injEq] at heq
              obtain ⟨rfl, rfl⟩ := heq
              obtain ⟨taken₁, rest₁, taken₂, h₁, h₂, rfl⟩ := ih s taken' hrec
              exact ⟨d :: taken₁, rest₁, taken₂, by rw [dropText?, if_pos hfold, h₁]; rfl, h₂, rfl⟩
          · cases h

/-- A word of a pattern that white space has to follow takes the first word of a text. -/
theorem folds_of_dropText? (u t taken rest : List Char) (hu : WhiteFree u) (ht : WhiteFree t)
    (h : dropText? u (t ++ following ws) = some (taken, rest)) (hrest : ∃ c ∈ rest.head?, isWhite c) :
    Folds u t ∧ rest = following ws := by
  have hfold := forall₂_of_dropText? u _ taken rest h
  have hspace : ' ' ∉ u := fun hmem => absurd (hu ' ' hmem) (by decide)
  obtain ⟨rfl, rfl⟩ := eq_of_append_eq_following taken rest t (dropText?_append u _ taken rest h)
    (space_not_mem_taken u taken hfold hspace) hrest ht
  exact ⟨hfold, rfl⟩

/-- A space in a pattern takes a space. -/
theorem exists_of_dropText?_space (t s taken rest : List Char)
    (h : dropText? (' ' :: t) s = some (taken, rest)) :
    ∃ s' taken', s = ' ' :: s' ∧ dropText? t s' = some (taken', rest) := by
  cases s with
  | nil => cases h
  | cons c s =>
      rw [dropText?] at h
      split at h
      · next hfold =>
          obtain rfl := eq_of_foldChar_eq c ' ' (by decide) (by decide) (beq_iff_eq.mp hfold).symm
          obtain ⟨⟨taken', rest'⟩, hrec, heq⟩ := Option.map_eq_some_iff.mp h
          simp only [Prod.mk.injEq] at heq
          obtain ⟨-, rfl⟩ := heq
          exact ⟨s, taken', rfl, hrec⟩
      · cases h

/-- **A phrase in a pattern takes words of a text** that are equal to its own up to case, if white space has
to follow. -/
theorem words_of_dropText? (us : List (List Char)) (hus : AreWords us) (hne : us ≠ [])
    (ws : List (List Char)) (hws : AreWords ws) (taken rest : List Char)
    (h : dropText? (spaced us) (spaced ws) = some (taken, rest)) (hrest : ∃ c ∈ rest.head?, isWhite c) :
    ∃ ws₁ ws₂, ws = ws₁ ++ ws₂ ∧ List.Forall₂ Folds us ws₁ ∧ rest = following ws₂ := by
  induction us generalizing ws taken with
  | nil => exact absurd rfl hne
  | cons u us ih =>
      obtain ⟨⟨hune, hu⟩, hus⟩ := List.forall_mem_cons.mp hus
      cases ws with
      | nil =>
          obtain ⟨c, u, rfl⟩ := List.exists_cons_of_ne_nil hune
          cases us <;> simp [dropText?] at h
      | cons w ws =>
          obtain ⟨⟨-, hw⟩, hws⟩ := List.forall_mem_cons.mp hws
          rw [spaced_cons, spaced_cons] at h
          by_cases hnil : us = []
          · subst hnil
            rw [following_nil, List.append_nil] at h
            obtain ⟨hfold, rfl⟩ := folds_of_dropText? u w taken rest hu hw h hrest
            exact ⟨[w], ws, rfl, .cons hfold .nil, rfl⟩
          · rw [following_of_ne_nil us hnil] at h
            obtain ⟨taken₁, rest₁, taken₂, h₁, h₂, rfl⟩ := dropText?_append_text _ _ _ _ _ h
            obtain ⟨s, taken₃, rfl, h₃⟩ := exists_of_dropText?_space _ _ _ _ h₂
            obtain ⟨hfold, hfollowing⟩ := folds_of_dropText? u w taken₁ _ hu hw h₁ ⟨' ', rfl, by decide⟩
            have hwsne : ws ≠ [] := by
              rintro rfl
              cases hfollowing
            rw [following_of_ne_nil ws hwsne] at hfollowing
            obtain ⟨-, rfl⟩ := List.cons.inj hfollowing
            obtain ⟨ws₁, ws₂, rfl, hfolds, rfl⟩ := ih hus hnil ws hws taken₃ h₃
            exact ⟨w :: ws₁, ws₂, rfl, .cons hfold hfolds, rfl⟩

/-- A phrase and a pattern behind white space match only where the words of the phrase stand, up to case, and
the pattern matches at the next word. -/
theorem mem_runs_phrase (text : String) (us : List (List Char)) (htext : text.toList = spaced us)
    (hus : AreWords us) (hne : us ≠ []) (hws : AreWords ws) (r : Run)
    (h : r ∈ (lit text ++ (spaces ++ q)).runs before (spaced ws)) :
    ∃ ws₁ ws₂, ws = ws₁ ++ ws₂ ∧ List.Forall₂ Folds us ws₁ ∧ ws₂ ≠ []
      ∧ ∃ r' ∈ q.runs (some ' ') (spaced ws₂), r.captures = r'.captures ∧ r.rest = r'.rest := by
  obtain ⟨r₁, h₁, r₂, h₂, rfl⟩ := mem_runs_append.mp h
  have hwhite := exists_head_of_mem_runs (leadingClass?_spaces q) _ _ r₂ h₂
  rw [lit, runs, htext] at h₁
  split at h₁
  · cases h₁
  · next taken rest hdrop =>
      obtain rfl := List.mem_singleton.mp h₁
      obtain ⟨ws₁, ws₂, rfl, hfolds, rfl⟩ := words_of_dropText? us hus hne ws hws taken rest hdrop hwhite
      have hws₂ : AreWords ws₂ := fun w hw => hws w (List.mem_append_right _ hw)
      obtain ⟨hne₂, r', hr', hcaptures, hrest⟩ := mem_runs_spaces_following hws₂ r₂ h₂
      exact ⟨ws₁, ws₂, rfl, hfolds, hne₂, r', hr', by simpa [Run.followedBy] using hcaptures, hrest⟩

/-- A phrase takes itself, and a pattern behind it is tried at the next word. -/
theorem runs_phrase (text : String) (v : List Char) (hv : ∀ c ∈ v.head?, isWhite c = false) :
    (lit text ++ (spaces ++ q)).runs before (text.toList ++ ' ' :: v)
      = (q.runs (some ' ') v).map (Run.followedBy ⟨text.toList ++ [' '], v, []⟩) := by
  show (seq (lit text) (spaces ++ q)).runs before _ = _
  rw [runs, runs_lit_append, List.flatMap_singleton, runs_spaces_append q _ v hv, List.map_map]
  congr 1
  funext r
  simp [Run.followedBy]

/-- What may be left out is tried first, and then left out. -/
theorem runs_optional_append (p q : Pattern) (before : Option Char) (s : List Char) :
    (optional p ++ q).runs before s = (p ++ q).runs before s ++ q.runs before s := by
  show (seq (alt p empty) q).runs before s = (seq p q).runs before s ++ q.runs before s
  have hempty : (q.runs before s).map (Run.followedBy ⟨[], s, []⟩) = q.runs before s := by
    conv_rhs => rw [← List.map_id (q.runs before s)]
    exact List.map_congr_left fun r _ => by simp [Run.followedBy]
  rw [runs, runs, runs, runs, List.flatMap_append, List.flatMap_singleton]
  exact congrArg _ hempty

/-! ## Numerals -/

/-- The decimal part of a numeral takes nothing where no point is. -/
theorem runs_fraction_eq_nil (before : Option Char) (v : List Char) (hv : ∀ c ∈ v.head?, c ≠ '.') :
    (lit "." ++ digits).runs before v = [] := by
  have hpoint : ".".toList = ['.'] := rfl
  have hnone : dropText? ".".toList v = none := by
    cases v with
    | nil => rfl
    | cons c v =>
        rw [hpoint, dropText?, if_neg]
        intro hfold
        exact hv c rfl (eq_of_foldChar_eq c '.' (by decide) (by decide) (beq_iff_eq.mp hfold).symm)
  have hlit : (lit ".").runs before v = [] := by rw [lit, runs, hnone]
  show (seq (lit ".") digits).runs before v = []
  rw [runs, hlit, List.flatMap_nil]

/-- A numeral is taken to its end. -/
theorem runs_capture_numeral (before : Option Char) (n v : List Char) (hn : IsDecimal isDecimalDigit n)
    (hdigit : ∀ c ∈ v.head?, isDecimalDigit c = false) (hpoint : ∀ c ∈ v.head?, c ≠ '.') :
    ∃ rs, (capture numeral).runs before (n ++ v) = ⟨n, v, [n]⟩ :: rs := by
  obtain ⟨whole, hwhole, hn⟩ := hn
  have hnumeral : ∀ rest, (∀ c ∈ rest.head?, isDecimalDigit c = false) →
      numeral.runs before (whole ++ rest)
        = ((lit "." ++ digits).runs (lastOf before whole) rest ++ [(⟨[], rest, []⟩ : Run)]).map
            (Run.followedBy ⟨whole, rest, []⟩) := by
    intro rest hrest
    have hdigits : digits.runs before (whole ++ rest) = [⟨whole, rest, []⟩] :=
      runs_run .digit before whole rest hwhole hrest
    show (seq digits (alt (lit "." ++ digits) empty)).runs before _ = _
    rw [runs, hdigits, List.flatMap_singleton]
    rfl
  rcases hn with rfl | ⟨fraction, hfraction, rfl⟩
  · rw [runs, hnumeral v hdigit, runs_fraction_eq_nil _ v hpoint]
    exact ⟨[], by simp [Run.followedBy, Run.captured]⟩
  · have hdot : ∀ c ∈ ('.' :: (fraction ++ v)).head?, isDecimalDigit c = false := by
      intro c hc
      obtain rfl : '.' = c := by simpa using hc
      decide
    have hfraction' : (lit "." ++ digits).runs (lastOf before whole) ('.' :: (fraction ++ v))
        = [⟨'.' :: fraction, v, []⟩] := by
      have hdigits : ∀ b, digits.runs b (fraction ++ v) = [⟨fraction, v, []⟩] :=
        fun b => runs_run .digit b fraction v hfraction hdigit
      have hlit := runs_lit_append "." (lastOf before whole) (fraction ++ v)
      show (seq (lit ".") digits).runs _ (".".toList ++ (fraction ++ v)) = _
      rw [runs, hlit, List.flatMap_singleton, hdigits]
      rfl
    rw [List.append_assoc, List.cons_append, runs, hnumeral _ hdot, hfraction']
    exact ⟨[⟨whole, '.' :: (fraction ++ v), [whole]⟩], by simp [Run.followedBy, Run.captured]⟩

end Pattern

/-! ## Values of rules -/

/-- The values of a rule are made of what its pattern captures. -/
theorem Rule.all_eq_filterMap {κ α : Type} (rule : Rule κ α) (context : κ) (text : String) :
    rule.all context text = (rule.pattern.captured text.toList).filterMap (rule.action context) := by
  rw [Rule.all, Pattern.captured, ← Pattern.matchesIn_eq, List.filterMap_map]
  rfl

end TextToSql
