import TextToSql.Proofs.Pattern.Operand
import TextToSql.Proofs.Text.Span

/-!
# Texts with more text behind them

What a pattern takes at the start of a text does not depend on what stands behind the text, if there is a
character in the text, or right behind it, that the pattern never takes. So where every match takes a certain
character that only the end of the pattern can take, the matches in a text stay the first ones when more is
written behind it.

* `runs_append_of_avoids` : the runs of a pattern in a longer text;
* `prefix_matchesFrom` : the matches in a text are the first ones in a longer text;
* `RuleSet.first?_of_head` : the value of a rule that comes first.
-/

namespace TextToSql

open Unicode

namespace Pattern

/-! ## Patterns that avoid characters -/

/-- A pattern takes no character of a kind. -/
def Avoids (stop : Char → Prop) : Pattern → Prop
  | .empty => True
  | .literal text => ∀ c ∈ text, ∀ d, stop d → sameFold c d = false
  | .run cls => ∀ d, stop d → cls.contains d = false
  | .boundary => True
  | .seq first second => first.Avoids stop ∧ second.Avoids stop
  | .alt first second => first.Avoids stop ∧ second.Avoids stop
  | .capture inner => inner.Avoids stop

variable {stop : Char → Prop}

@[simp]
theorem avoids_append (p q : Pattern) : (p ++ q).Avoids stop ↔ p.Avoids stop ∧ q.Avoids stop := Iff.rfl

@[simp]
theorem avoids_capture (p : Pattern) : (capture p).Avoids stop ↔ p.Avoids stop := Iff.rfl

@[simp]
theorem avoids_boundary : boundary.Avoids stop := trivial

@[simp]
theorem avoids_optional (p : Pattern) : (optional p).Avoids stop ↔ p.Avoids stop := and_iff_left trivial

@[simp]
theorem avoids_oneOf (texts : List String) :
    (oneOf texts).Avoids stop ↔ ∀ text ∈ texts, (lit text).Avoids stop := by
  unfold oneOf
  induction texts with
  | nil => simp [firstOf, Avoids]
  | cons text texts ih =>
      cases texts with
      | nil => simp [firstOf]
      | cons text' texts =>
          rw [List.forall_mem_cons, ← ih]
          exact Iff.rfl

/-- What a pattern avoids is not among the characters that it takes. -/
theorem not_stop_of_mem_taken (p : Pattern) (h : p.Avoids stop) (before : Option Char) (s : List Char)
    (r : Run) (hr : r ∈ p.runs before s) : ∀ c ∈ r.taken, ¬ stop c := by
  induction p generalizing before s r with
  | empty =>
      obtain rfl := List.mem_singleton.mp hr
      exact fun c hc => absurd hc List.not_mem_nil
  | literal text =>
      rw [runs] at hr
      split at hr
      · cases hr
      · next taken rest hdrop =>
          obtain rfl := List.mem_singleton.mp hr
          have hfold := forall₂_of_dropText? text s taken rest hdrop
          clear hdrop hr
          intro c hc hstop
          induction hfold with
          | nil => cases hc
          | cons hsame _ ih =>
              obtain ⟨hhead, htail⟩ := List.forall_mem_cons.mp h
              rcases List.mem_cons.mp hc with rfl | hc
              · rw [hhead c hstop] at hsame
                cases hsame
              · exact ih htail hc
  | run cls =>
      intro c hc hstop
      have hcls := (isRun_of_takes_run cls r.taken ⟨before, s, r, hr, rfl⟩).2 c hc
      rw [h c hstop] at hcls
      cases hcls
  | boundary =>
      rw [runs] at hr
      split at hr
      · obtain rfl := List.mem_singleton.mp hr
        exact fun c hc => absurd hc List.not_mem_nil
      · cases hr
  | seq first second ih₁ ih₂ =>
      rw [runs, List.mem_flatMap] at hr
      obtain ⟨r₁, h₁, hr⟩ := hr
      obtain ⟨r₂, h₂, rfl⟩ := List.mem_map.mp hr
      intro c hc
      rcases List.mem_append.mp hc with hc | hc
      · exact ih₁ h.1 _ _ r₁ h₁ c hc
      · exact ih₂ h.2 _ _ r₂ h₂ c hc
  | alt first second ih₁ ih₂ =>
      rw [runs, List.mem_append] at hr
      rcases hr with hr | hr
      · exact ih₁ h.1 _ _ r hr
      · exact ih₂ h.2 _ _ r hr
  | capture inner ih =>
      rw [runs] at hr
      obtain ⟨r', hr', rfl⟩ := List.mem_map.mp hr
      exact ih h _ _ r' hr'

/-! ## Runs in a longer text -/

/-- A run in a text with more text behind it. -/
def Run.extend (more : List Char) (r : Run) : Run := ⟨r.taken, r.rest ++ more, r.captures⟩

/-- A character of a kind stands in a text, or it stands right behind the text and belongs to no word. -/
def Stops (stop : Char → Prop) (s more : List Char) : Prop :=
  (∃ c ∈ s, stop c) ∨ ∃ c ∈ more.head?, stop c ∧ isWordChar c = false

/-- Behind characters of another kind, the character still stands in the text or right behind it. -/
theorem Stops.of_append (taken : List Char) {rest more : List Char}
    (h : Stops stop (taken ++ rest) more) (htaken : ∀ c ∈ taken, ¬ stop c) : Stops stop rest more := by
  rcases h with ⟨c, hc, hstop⟩ | hmore
  · rcases List.mem_append.mp hc with hc | hc
    · exact absurd hstop (htaken c hc)
    · exact .inl ⟨c, hc, hstop⟩
  · exact .inr hmore

/-- Behind a character of another kind, the character still stands in the text or right behind it. -/
theorem Stops.of_cons {c : Char} {s more : List Char} (h : Stops stop (c :: s) more) (hc : ¬ stop c) :
    Stops stop s more :=
  Stops.of_append [c] h (by simpa using hc)

/-- Where the text is empty, the character stands right behind it. -/
theorem Stops.exists_cons {more : List Char} (h : Stops stop [] more) :
    ∃ c more', more = c :: more' ∧ stop c ∧ isWordChar c = false := by
  obtain ⟨c, hc, -⟩ | ⟨c, hc, hstop, hword⟩ := h
  · cases hc
  · obtain ⟨more', rfl⟩ := List.head?_eq_some_iff.mp hc
    exact ⟨c, more', rfl, hstop, hword⟩

/-- A text takes the same from a longer text. -/
theorem dropText?_append_of_stops (t s more : List Char)
    (ht : ∀ c ∈ t, ∀ d, stop d → sameFold c d = false) (h : Stops stop s more) :
    dropText? t (s ++ more) = (dropText? t s).map fun (taken, rest) => (taken, rest ++ more) := by
  induction t generalizing s with
  | nil => rfl
  | cons a t ih =>
      obtain ⟨ha, ht⟩ := List.forall_mem_cons.mp ht
      cases s with
      | nil =>
          obtain ⟨c, more', rfl, hstop, -⟩ := h.exists_cons
          simp [dropText?, ha c hstop]
      | cons c s =>
          rw [List.cons_append, dropText?, dropText?]
          by_cases hsame : sameFold a c
          · have hc : ¬ stop c := fun hstop => Bool.false_ne_true ((ha c hstop).symm.trans hsame)
            rw [if_pos hsame, if_pos hsame, ih s ht (h.of_cons hc), Option.map_map, Option.map_map]
            rfl
          · rw [if_neg hsame, if_neg hsame]
            rfl

/-- A class without the character goes no further than it in a longer text. -/
theorem Stops.takeWhile_append (cls : CharClass) {s more : List Char} (h : Stops stop s more)
    (hcls : ∀ d, stop d → cls.contains d = false) :
    (s ++ more).takeWhile cls.contains = s.takeWhile cls.contains
      ∧ (s ++ more).dropWhile cls.contains = s.dropWhile cls.contains ++ more := by
  refine Text.takeWhile_append cls.contains s more ?_
  rcases h with ⟨c, hc, hstop⟩ | ⟨c, hc, hstop, -⟩
  · exact .inl ⟨c, hc, hcls c hstop⟩
  · rw [hc]
    exact .inr fun d hd => hcls d (Option.mem_some.mp hd ▸ hstop)

/-- A repetition takes the same from a longer text. -/
theorem takeRun?_append_of_stops (cls : CharClass) (s more : List Char)
    (hcls : ∀ d, stop d → cls.contains d = false) (h : Stops stop s more) :
    takeRun? cls (s ++ more) = (takeRun? cls s).map fun (taken, rest) => (taken, rest ++ more) := by
  cases s with
  | nil =>
      obtain ⟨c, more', rfl, hstop, -⟩ := h.exists_cons
      simp [takeRun?, hcls c hstop]
  | cons c s =>
      rw [List.cons_append, takeRun?, takeRun?]
      by_cases hc : cls.contains c
      · have hstop : ¬ stop c := fun hstop => Bool.false_ne_true ((hcls c hstop).symm.trans hc)
        obtain ⟨htake, hdrop⟩ := (h.of_cons hstop).takeWhile_append cls hcls
        rw [if_pos hc, if_pos hc, htake, hdrop]
        rfl
      · rw [if_neg hc, if_neg hc]
        rfl

/-- **The runs of a pattern in a longer text** are those in the text, if a character that the pattern never
takes stands in the text, or right behind it without going on with a word. -/
theorem runs_append_of_avoids (p : Pattern) (h : p.Avoids stop) (before : Option Char) (s more : List Char)
    (hstops : Stops stop s more) :
    p.runs before (s ++ more) = (p.runs before s).map (Run.extend more) := by
  induction p generalizing before s with
  | empty => rfl
  | literal text =>
      rw [runs, runs, dropText?_append_of_stops text s more h hstops]
      cases dropText? text s <;> rfl
  | run cls =>
      rw [runs, runs, takeRun?_append_of_stops cls s more h hstops]
      cases takeRun? cls s <;> rfl
  | boundary =>
      -- what stands right behind the text is no word character, as if nothing stood there
      have hboundary : isBoundary before (s ++ more).head? = isBoundary before s.head? := by
        cases s with
        | nil =>
            obtain ⟨c, more', rfl, -, hword⟩ := hstops.exists_cons
            simp [isBoundary, hword]
        | cons c s => rfl
      rw [runs, runs, hboundary]
      split <;> rfl
  | seq first second ih₁ ih₂ =>
      rw [runs, runs, ih₁ h.1 before s hstops, List.flatMap_map, List.map_flatMap]
      refine List.flatMap_congr fun r hr => ?_
      have hs := taken_append_rest first before s r hr
      have hrest : Stops stop r.rest more := by
        rw [← hs] at hstops
        exact hstops.of_append r.taken (not_stop_of_mem_taken first h.1 before s r hr)
      show (second.runs (lastOf before r.taken) (r.rest ++ more)).map _ = _
      rw [ih₂ h.2 _ _ hrest, List.map_map, List.map_map]
      rfl
  | alt first second ih₁ ih₂ =>
      rw [runs, runs, ih₁ h.1 before s hstops, ih₂ h.2 before s hstops, List.map_append]
  | capture inner ih =>
      rw [runs, runs, ih h before s hstops, List.map_map, List.map_map]
      rfl

/-! ## Matches in a longer text -/

/-- Where a pattern always takes something, the preferred run is the match. -/
theorem matchAt?_eq_head? (p : Pattern) (htaken : ∀ before s, ∀ r ∈ p.runs before s, r.taken ≠ [])
    (before : Option Char) (justEnded : Bool) (s : List Char) :
    p.matchAt? before justEnded s = (p.runs before s).head? := by
  rw [matchAt?]
  cases hruns : p.runs before s with
  | nil => rfl
  | cons r rs =>
      have hne := htaken before s r (by rw [hruns]; exact List.mem_cons_self)
      simp [hne]

/-- A pattern whose every match takes a character of a kind does not match in a text without one. -/
theorem matchesFrom_eq_nil_of_forall_not (p : Pattern)
    (htakes : ∀ before s, ∀ r ∈ p.runs before s, ∃ c ∈ r.taken, stop c) (before : Option Char)
    (offset : Nat) (justEnded : Bool) (s : List Char) (hs : ∀ c ∈ s, ¬ stop c) :
    p.matchesFrom before offset 0 justEnded s = [] := by
  rw [List.eq_nil_iff_forall_not_mem]
  intro m hm
  obtain ⟨u, r, rfl, hhead, -⟩ := (finds_matchesFrom p before offset justEnded s).exists_place m hm
  obtain ⟨c, hc, hstop⟩ := htakes _ _ r (List.mem_of_mem_head? hhead)
  exact hs c (by simp [hc]) hstop

/-- **The matches in a text are the first ones in a longer text**, if each of them takes a character of a
kind, and the runs of the pattern where such a character stands do not change. -/
theorem prefix_matchesFrom (p : Pattern) (more : List Char)
    (htakes : ∀ before s, ∀ r ∈ p.runs before s, ∃ c ∈ r.taken, stop c)
    (hruns : ∀ before s, (∃ c ∈ s, stop c) →
      p.runs before (s ++ more) = (p.runs before s).map (Run.extend more))
    (before : Option Char) (offset : Nat) (justEnded : Bool) (s : List Char) :
    p.matchesFrom before offset 0 justEnded s <+: p.matchesFrom before offset 0 justEnded (s ++ more) := by
  have htaken : ∀ before s, ∀ r ∈ p.runs before s, r.taken ≠ [] := by
    intro before s r hr hnil
    obtain ⟨c, hc, -⟩ := htakes before s r hr
    rw [hnil] at hc
    cases hc
  -- on the length of the text: behind a match the search goes on some characters further on
  induction hlength : s.length using Nat.strong_induction_on generalizing before offset justEnded s with
  | _ n ih =>
      by_cases hstop : ∃ c ∈ s, stop c
      · have hmore : p.matchAt? before justEnded (s ++ more)
            = (p.matchAt? before justEnded s).map (Run.extend more) := by
          rw [matchAt?_eq_head? p htaken, matchAt?_eq_head? p htaken, hruns before s hstop, List.head?_map]
        cases hat : p.matchAt? before justEnded s with
        | none =>
            rw [hat, Option.map_none] at hmore
            cases s with
            | nil =>
                obtain ⟨c, hc, -⟩ := hstop
                cases hc
            | cons c s =>
                rw [List.cons_append] at hmore ⊢
                rw [matchesFrom, hat, matchesFrom, hmore]
                rw [List.length_cons] at hlength
                exact ih s.length (by omega) _ _ _ s rfl
        | some r =>
            rw [hat, Option.map_some] at hmore
            have hr := mem_runs_of_matchAt? p before justEnded s r hat
            have hne := htaken before s r hr
            have hs := taken_append_rest p before s r hr
            have hs' : s ++ more = (r.extend more).taken ++ (r.extend more).rest := by
              rw [← hs]
              exact List.append_assoc _ _ _
            have hpos := List.length_pos_of_ne_nil hne
            rw [hs'] at hmore ⊢
            rw [matchesFrom_of_matchAt? p before offset justEnded (r.extend more) hmore hne]
            rw [← hs] at hat hlength ⊢
            rw [matchesFrom_of_matchAt? p before offset justEnded r hat hne]
            rw [List.length_append] at hlength
            exact (List.prefix_cons_inj _).mpr (ih r.rest.length (by omega) _ _ _ r.rest rfl)
      · have hnone : ∀ c ∈ s, ¬ stop c := fun c hc hc' => hstop ⟨c, hc, hc'⟩
        rw [matchesFrom_eq_nil_of_forall_not p htakes before offset justEnded s hnone]
        exact List.nil_prefix

end Pattern

/-! ## Values of rules -/

/-- What a rule makes of a text it makes of a longer one too, if the matches in the text are the first ones
in the longer one. -/
theorem Rule.first?_of_longer {κ α : Type} (rule : Rule κ α) (context : κ) (text longer : String)
    (a : α) (h : rule.pattern.matchesIn text <+: rule.pattern.matchesIn longer)
    (hfirst : rule.first? context text = some a) : rule.first? context longer = some a := by
  obtain ⟨more, hmore⟩ := h
  rw [Rule.first?, ← hmore, List.findSome?_append]
  exact Option.or_eq_some_iff.mpr (.inl hfirst)

/-- The value of the rule that comes first is the value of the set. -/
theorem RuleSet.first?_of_head {κ α : Type} (set : RuleSet κ α) (rule : Rule κ α)
    (hrule : set.rules.head? = some rule) (context : κ) (text : String) (a : α)
    (h : rule.first? context text = some a) : set.first? context text = some a := by
  obtain ⟨rules, hrules⟩ := List.head?_eq_some_iff.mp hrule
  rw [RuleSet.first?, hrules, List.findSome?_cons, h]

end TextToSql
