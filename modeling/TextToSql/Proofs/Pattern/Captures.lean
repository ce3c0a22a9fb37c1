import TextToSql.Pattern.Rule
import TextToSql.Proofs.Decimal
import TextToSql.Proofs.Unicode.CaseFold

/-!
# What patterns capture

What the captured parts of a match can look like follows from the shape of the pattern alone: a capture
holds a text that its inner pattern can take, and the captures of a sequence stand one after the other.

* `yields_of_mem_runs` : the captures of a run are such a list;
* `isDecimal_of_takes_numeral` : what a numeral takes is a decimal numeral;
* `RuleSet.mem_all` : a value of a set of rules is made of such a list.
-/

namespace TextToSql

open Unicode

/-- One or more characters of a class. -/
def IsRun (cls : CharClass) (s : List Char) : Prop := s ≠ [] ∧ ∀ c ∈ s, cls.contains c

instance (cls : CharClass) (s : List Char) : Decidable (IsRun cls s) :=
  decidable_of_iff (s ≠ [] ∧ s.all cls.contains) (and_congr_right fun _ => List.all_eq_true)

namespace Pattern

/-! ## Texts and captures of a pattern -/

/-- A pattern takes a text at some place. -/
def Takes (p : Pattern) (t : List Char) : Prop := ∃ before s, ∃ r ∈ p.runs before s, r.taken = t

/-- The lists of captured parts that a pattern allows. -/
def Yields : Pattern → List (List Char) → Prop
  | .seq first second, cs => ∃ cs₁ cs₂, first.Yields cs₁ ∧ second.Yields cs₂ ∧ cs₁ ++ cs₂ = cs
  | .alt first second, cs => first.Yields cs ∨ second.Yields cs
  | .capture inner, cs => ∃ t cs', inner.Takes t ∧ inner.Yields cs' ∧ t :: cs' = cs
  | _, cs => cs = []

/-- The captures of a run are allowed by the pattern. -/
theorem yields_of_mem_runs (p : Pattern) (before : Option Char) (s : List Char) (r : Run)
    (h : r ∈ p.runs before s) : p.Yields r.captures := by
  induction p generalizing before s r with
  | empty =>
      rw [runs, List.mem_singleton] at h
      rw [h]
      rfl
  | literal text =>
      rw [runs] at h
      split at h
      · cases h
      · rw [List.mem_singleton] at h
        rw [h]
        rfl
  | run cls =>
      rw [runs] at h
      split at h
      · cases h
      · rw [List.mem_singleton] at h
        rw [h]
        rfl
  | boundary =>
      rw [runs] at h
      split at h
      · rw [List.mem_singleton] at h
        rw [h]
        rfl
      · cases h
  | seq first second ih₁ ih₂ =>
      rw [runs, List.mem_flatMap] at h
      obtain ⟨r₁, h₁, h⟩ := h
      obtain ⟨r₂, h₂, rfl⟩ := List.mem_map.mp h
      exact ⟨r₁.captures, r₂.captures, ih₁ _ _ _ h₁, ih₂ _ _ _ h₂, rfl⟩
  | alt first second ih₁ ih₂ =>
      rw [runs, List.mem_append] at h
      rcases h with h | h
      · exact Or.inl (ih₁ _ _ _ h)
      · exact Or.inr (ih₂ _ _ _ h)
  -- the only pattern that adds a captured part: what its inner pattern has taken
  | capture inner ih =>
      rw [runs] at h
      obtain ⟨r', h', rfl⟩ := List.mem_map.mp h
      exact ⟨r'.taken, r'.captures, ⟨before, s, r', h', rfl⟩, ih before s r' h', rfl⟩

/-- The captures of a match are allowed by the pattern. -/
theorem yields_of_mem_matchesFrom (p : Pattern) (before : Option Char) (offset skip : Nat)
    (justEnded : Bool) (s : List Char) (m : Match)
    (h : m ∈ p.matchesFrom before offset skip justEnded s) :
    ∃ cs, p.Yields cs ∧ m.captures = cs.map String.ofList := by
  have hat : ∀ before justEnded s r, p.matchAt? before justEnded s = some r → p.Yields r.captures := by
    intro before justEnded s r hr
    exact yields_of_mem_runs p before s r (mem_runs_of_matchAt? p before justEnded s r hr)
  -- the search goes on behind a match, so the number of characters to skip changes with the text
  induction s generalizing before offset skip justEnded with
  | nil =>
      cases skip with
      | succ n => cases h
      | zero =>
          rw [matchesFrom, Option.mem_toList] at h
          obtain ⟨r, hr, rfl⟩ := Option.map_eq_some_iff.mp h
          exact ⟨r.captures, hat _ _ _ r hr, rfl⟩
  | cons c rest ih =>
      cases skip with
      | succ n => exact ih _ _ _ _ h
      | zero =>
          rw [matchesFrom] at h
          split at h
          · exact ih _ _ _ _ h
          · next r hr =>
              rcases List.mem_cons.mp h with rfl | h
              · exact ⟨r.captures, hat _ _ _ r hr, rfl⟩
              · exact ih _ _ _ _ h

/-- The captures of a match in a text are allowed by the pattern. -/
theorem yields_of_mem_matchesIn (p : Pattern) (text : String) (m : Match) (h : m ∈ p.matchesIn text) :
    ∃ cs, p.Yields cs ∧ m.captures = cs.map String.ofList := by
  rw [matchesIn_eq] at h
  exact yields_of_mem_matchesFrom p _ _ _ _ _ m h

/-! ## The captures of composed patterns -/

@[simp]
theorem yields_append (p q : Pattern) (cs : List (List Char)) :
    (p ++ q).Yields cs ↔ ∃ cs₁ cs₂, p.Yields cs₁ ∧ q.Yields cs₂ ∧ cs₁ ++ cs₂ = cs := Iff.rfl

@[simp]
theorem yields_capture (p : Pattern) (cs : List (List Char)) :
    (capture p).Yields cs ↔ ∃ t cs', p.Takes t ∧ p.Yields cs' ∧ t :: cs' = cs := Iff.rfl

@[simp]
theorem yields_optional (p : Pattern) (cs : List (List Char)) :
    (optional p).Yields cs ↔ p.Yields cs ∨ cs = [] := Iff.rfl

@[simp]
theorem yields_lit (s : String) (cs : List (List Char)) : (lit s).Yields cs ↔ cs = [] := Iff.rfl

@[simp]
theorem yields_word (cs : List (List Char)) : word.Yields cs ↔ cs = [] := Iff.rfl

@[simp]
theorem yields_digits (cs : List (List Char)) : digits.Yields cs ↔ cs = [] := Iff.rfl

@[simp]
theorem yields_spaces (cs : List (List Char)) : spaces.Yields cs ↔ cs = [] := Iff.rfl

@[simp]
theorem yields_boundary (cs : List (List Char)) : boundary.Yields cs ↔ cs = [] := Iff.rfl

@[simp]
theorem yields_oneOf (texts : List String) (cs : List (List Char)) :
    (oneOf texts).Yields cs ↔ cs = [] := by
  unfold oneOf
  induction texts with
  | nil => exact Iff.rfl
  | cons text texts ih =>
      cases texts with
      | nil => exact Iff.rfl
      | cons text' texts =>
          show (lit text).Yields cs ∨ (firstOf ((text' :: texts).map lit)).Yields cs ↔ cs = []
          rw [ih, yields_lit, or_self]

@[simp]
theorem yields_numeral (cs : List (List Char)) : numeral.Yields cs ↔ cs = [] := by
  simp [numeral]

/-! ## The texts of composed patterns -/

/-- What a repetition takes is a run of its class. -/
theorem isRun_of_takes_run (cls : CharClass) (t : List Char) (h : (run cls).Takes t) :
    IsRun cls t := by
  obtain ⟨before, s, r, hr, rfl⟩ := h
  rw [runs] at hr
  cases s with
  | nil => cases hr
  | cons c s =>
      by_cases hc : cls.contains c
      · rw [takeRun?, if_pos hc, List.mem_singleton] at hr
        rw [hr]
        refine ⟨List.cons_ne_nil _ _, ?_⟩
        intro d hd
        rcases List.mem_cons.mp hd with rfl | hd
        · exact hc
        · exact List.all_eq_true.mp List.all_takeWhile d hd
      · rw [takeRun?, if_neg hc] at hr
        cases hr

/-- What a sequence takes is taken by its parts one after the other. -/
theorem takes_append (p q : Pattern) (t : List Char) (h : (p ++ q).Takes t) :
    ∃ t₁ t₂, p.Takes t₁ ∧ q.Takes t₂ ∧ t = t₁ ++ t₂ := by
  obtain ⟨before, s, r, hr, rfl⟩ := h
  obtain ⟨r₁, h₁, r₂, h₂, rfl⟩ := mem_runs_append.mp hr
  exact ⟨r₁.taken, r₂.taken, ⟨_, _, r₁, h₁, rfl⟩, ⟨_, _, r₂, h₂, rfl⟩, rfl⟩

/-- What may be left out takes something of its own or nothing. -/
theorem takes_optional (p : Pattern) (t : List Char) (h : (optional p).Takes t) :
    p.Takes t ∨ t = [] := by
  obtain ⟨before, s, r, hr, rfl⟩ := h
  rcases List.mem_append.mp hr with hr | hr
  · exact Or.inl ⟨before, s, r, hr, rfl⟩
  · rw [runs, List.mem_singleton] at hr
    rw [hr]
    exact Or.inr rfl

/-- What the pattern of a point takes is a point: no letter case hides another character there. -/
theorem takes_point (t : List Char) (h : (lit ".").Takes t) : t = ['.'] := by
  obtain ⟨before, s, r, hr, rfl⟩ := h
  have hpoint : ".".toList = ['.'] := rfl
  rw [lit, hpoint, runs] at hr
  cases s with
  | nil => cases hr
  | cons c s =>
      by_cases hc : sameFold '.' c
      · obtain rfl := eq_of_foldChar_eq c '.' (by decide) (by decide) (beq_iff_eq.mp hc).symm
        simp only [dropText?, if_pos hc, Option.map_some, List.mem_singleton] at hr
        rw [hr]
      · simp [dropText?, hc] at hr

/-- What a numeral takes is a decimal numeral, in digits of any script. -/
theorem isDecimal_of_takes_numeral (t : List Char) (h : numeral.Takes t) :
    IsDecimal isDecimalDigit t := by
  obtain ⟨whole, rest, hwhole, hrest, rfl⟩ := takes_append _ _ t h
  refine ⟨whole, isRun_of_takes_run .digit whole hwhole, ?_⟩
  rcases takes_optional _ rest hrest with hrest | rfl
  · obtain ⟨point, fraction, hpoint, hfraction, rfl⟩ := takes_append _ _ rest hrest
    rw [takes_point point hpoint]
    exact Or.inr ⟨fraction, isRun_of_takes_run .digit fraction hfraction, rfl⟩
  · exact Or.inl (List.append_nil whole)

end Pattern

/-! ## Values of rules -/

variable {κ α : Type}

/-- A rule makes a value of captures that its pattern allows. -/
def Rule.Gives (rule : Rule κ α) (context : κ) (a : α) : Prop :=
  ∃ cs, rule.pattern.Yields cs ∧ rule.action context (cs.map String.ofList) = some a

/-- The values of a rule on a text are made of allowed captures. -/
theorem Rule.gives_of_mem_matches (rule : Rule κ α) (context : κ) (text : String) (m : Match) (a : α)
    (hm : m ∈ rule.pattern.matchesIn text) (h : rule.action context m.captures = some a) :
    rule.Gives context a := by
  obtain ⟨cs, hcs, hcaptures⟩ := Pattern.yields_of_mem_matchesIn _ _ _ hm
  exact ⟨cs, hcs, by rwa [← hcaptures]⟩

/-- The first value of a set of rules is made of a match of one of them. -/
theorem RuleSet.exists_match_of_first? (set : RuleSet κ α) (context : κ) (text : String) (a : α)
    (h : set.first? context text = some a) :
    ∃ rule ∈ set.rules, ∃ m ∈ rule.pattern.matchesIn text,
      rule.action context m.captures = some a := by
  obtain ⟨rule, hrule, hfirst⟩ := List.exists_of_findSome?_eq_some h
  obtain ⟨m, hm, haction⟩ := List.exists_of_findSome?_eq_some hfirst
  exact ⟨rule, hrule, m, hm, haction⟩

/-- The first value of a set of rules is given by one of them. -/
theorem RuleSet.first?_eq_some (set : RuleSet κ α) (context : κ) (text : String) (a : α)
    (h : set.first? context text = some a) : ∃ rule ∈ set.rules, rule.Gives context a := by
  obtain ⟨rule, hrule, m, hm, haction⟩ := set.exists_match_of_first? context text a h
  exact ⟨rule, hrule, rule.gives_of_mem_matches context text m a hm haction⟩

/-- Every value of a set of rules is made of a match of one of them. -/
theorem RuleSet.exists_match_of_mem_all (set : RuleSet κ α) (context : κ) (text : String) (a : α)
    (h : a ∈ set.all context text) :
    ∃ rule ∈ set.rules, ∃ m ∈ rule.pattern.matchesIn text,
      rule.action context m.captures = some a := by
  obtain ⟨rule, hrule, hmem⟩ := List.mem_flatMap.mp h
  obtain ⟨m, hm, haction⟩ := List.mem_filterMap.mp hmem
  exact ⟨rule, hrule, m, hm, haction⟩

/-- What holds of the values of an action holds of those of a set of rules with this action. -/
theorem RuleSet.forall_mem_all (set : RuleSet κ α) (context : κ) (text : String) (P : α → Prop)
    (action : κ → List String → Option α) (hrules : ∀ rule ∈ set.rules, rule.action = action)
    (haction : ∀ captures a, action context captures = some a → P a) :
    ∀ a ∈ set.all context text, P a := by
  intro a h
  obtain ⟨rule, hrule, m, -, hvalue⟩ := set.exists_match_of_mem_all context text a h
  rw [hrules rule hrule] at hvalue
  exact haction m.captures a hvalue

/-- Every value of a set of rules is given by one of them. -/
theorem RuleSet.mem_all (set : RuleSet κ α) (context : κ) (text : String) (a : α)
    (h : a ∈ set.all context text) : ∃ rule ∈ set.rules, rule.Gives context a := by
  obtain ⟨rule, hrule, m, hm, haction⟩ := set.exists_match_of_mem_all context text a h
  exact ⟨rule, hrule, rule.gives_of_mem_matches context text m a hm haction⟩

end TextToSql
