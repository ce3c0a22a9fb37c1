import Mathlib.Data.List.Flatten
import TextToSql.Lexicon.Limit
import TextToSql.Proofs.Pattern.Captures
import TextToSql.Proofs.Pattern.Place

/-!
# The readings of a rule set

A rule set is read for its first value, for all its values, for the first value of each rule, or only for whether
one of its patterns occurs. The first three look at the same matches and pass over those that an action declines,
so that the first value is the one with which the other two start. The last one does not ask the actions: a pattern
may occur where every action declines, but where none occurs there is no value.

* `Rule.first?_eq_head?_all` : the first value of a rule is the first one of its values;
* `RuleSet.map_some_firsts` : the first values are those with which the values of each rule start;
* `RuleSet.occursIn_eq_false_iff` : where no pattern of a rule set occurs;
* `RuleSet.readings_agree` : the readings of a rule set agree.
-/

namespace TextToSql

variable {κ α : Type}

/-- The first value of a rule is the first one of its values. -/
theorem Rule.first?_eq_head?_all (rule : Rule κ α) (context : κ) (text : String) :
    rule.first? context text = (rule.all context text).head? := by
  rw [Rule.all, List.head?_filterMap, Rule.first?]

namespace RuleSet

variable (set : RuleSet κ α) (context : κ) (text : String)

/-! ## The first value -/

/-- The first value is the first one of all values: rules without values do not count. -/
theorem first?_eq_head?_all : set.first? context text = (set.all context text).head? :=
  calc set.first? context text
    _ = set.rules.findSome? fun rule => (rule.all context text).head? := by
      simp only [first?, Rule.first?_eq_head?_all]
    _ = (set.all context text).head? := List.head?_flatMap.symm

/-- The first value is the first one of the first values of the rules. -/
theorem first?_eq_head?_firsts : set.first? context text = (set.firsts context text).head? := by
  rw [firsts, List.head?_filterMap, first?]

/-! ## The values rule by rule -/

/-- The values of each rule that has any, in the order of the rules. -/
def blocks : List (List α) :=
  (set.rules.map fun rule => rule.all context text).filter fun values => !values.isEmpty

/-- The blocks one after the other are all values. -/
theorem flatten_blocks : (set.blocks context text).flatten = set.all context text := by
  rw [blocks, List.flatten_filter_not_isEmpty, all, List.flatMap_def]

/-- A rule in front puts its first value, if it has any, before those of the other rules. -/
theorem firsts_cons (rule : Rule κ α) (rules : List (Rule κ α)) :
    firsts ⟨rule :: rules⟩ context text
      = (rule.all context text).head?.toList ++ firsts ⟨rules⟩ context text := by
  rw [← rule.first?_eq_head?_all, firsts, firsts, List.filterMap_cons]
  cases rule.first? context text with
  | none => rfl
  | some value => rfl

/-- A rule in front puts its values, if it has any, before the blocks of the other rules. -/
theorem blocks_cons (rule : Rule κ α) (rules : List (Rule κ α)) :
    blocks ⟨rule :: rules⟩ context text
      = [rule.all context text].filter (fun values => !values.isEmpty) ++ blocks ⟨rules⟩ context text := by
  rw [blocks, blocks, ← List.filter_append, List.map_cons, List.singleton_append]

/-- There is a first value for each block, and it is the one with which the block starts. -/
theorem map_some_firsts :
    (set.firsts context text).map some = (set.blocks context text).map List.head? := by
  obtain ⟨rules⟩ := set
  induction rules with
  | nil => rfl
  | cons rule rules ih =>
      rw [firsts_cons, blocks_cons, List.map_append, List.map_append, ih]
      -- the rule in front adds the same on both sides: nothing, or its first value
      cases rule.all context text with
      | nil => rfl
      | cons value rest => rfl

/-- The first values of the rules stand among all values, in the same order. -/
theorem firsts_sublist_all : (set.firsts context text).Sublist (set.all context text) := by
  have hfirst : ∀ rule ∈ set.rules,
      (rule.first? context text).toList.Sublist (rule.all context text) := by
    intro rule _
    rw [rule.first?_eq_head?_all, ← List.take_one]
    exact List.take_sublist 1 _
  rw [firsts, List.filterMap_eq_flatMap_toList, all]
  exact List.Sublist.flatMap_right set.rules hfirst

/-! ## Matches and values -/

/-- The values are what the actions make of the matches. -/
theorem mem_all_iff (a : α) :
    a ∈ set.all context text ↔ ∃ rule ∈ set.rules, ∃ m ∈ rule.pattern.matchesIn text,
      rule.action context m.captures = some a := by
  refine ⟨set.exists_match_of_mem_all context text a, ?_⟩
  rintro ⟨rule, hrule, m, hm, haction⟩
  exact List.mem_flatMap.mpr ⟨rule, hrule, List.mem_filterMap.mpr ⟨m, hm, haction⟩⟩

/-- No pattern of a rule set occurs in a text exactly if none has a run at any place of it. -/
theorem occursIn_eq_false_iff :
    set.occursIn text = false ↔ ∀ rule ∈ set.rules, ∀ u v, text.toList = u ++ v →
      rule.pattern.runs (Pattern.lastOf none u) v = [] := by
  rw [occursIn, List.any_eq_false]
  refine forall₂_congr fun rule _ => ?_
  rw [Pattern.occursIn_iff_runs]
  push Not
  rfl

/-- Where no pattern occurs there is no value. -/
theorem all_eq_nil_of_occursIn_eq_false (h : set.occursIn text = false) :
    set.all context text = [] := by
  refine List.flatMap_eq_nil_iff.mpr fun rule hrule => ?_
  have hoccurs : rule.pattern.occursIn text = false :=
    Bool.eq_false_iff.mpr (List.any_eq_false.mp h rule hrule)
  rw [Rule.all, (rule.pattern.matchesIn_eq_nil_iff text).mpr hoccurs, List.filterMap_nil]

/-- **The readings of a rule set agree.** The first value is the one with which all values start, and the one with
which the first values of the rules start. All values are the blocks of the rules that have any, in the order of the
rules, and the first values are those with which the blocks start. A value is what an action makes of a match; and
where no pattern has a run at any place, no reading has a value. -/
theorem readings_agree :
    set.first? context text = (set.all context text).head?
      ∧ set.first? context text = (set.firsts context text).head?
      ∧ (set.firsts context text).Sublist (set.all context text)
      ∧ (set.blocks context text).flatten = set.all context text
      ∧ (set.firsts context text).map some = (set.blocks context text).map List.head?
      ∧ (∀ a, a ∈ set.all context text ↔ ∃ rule ∈ set.rules, ∃ m ∈ rule.pattern.matchesIn text,
          rule.action context m.captures = some a)
      ∧ (set.occursIn text = false ↔ ∀ rule ∈ set.rules, ∀ u v, text.toList = u ++ v →
          rule.pattern.runs (Pattern.lastOf none u) v = [])
      ∧ (set.occursIn text = false → set.first? context text = none
          ∧ set.all context text = [] ∧ set.firsts context text = []) := by
  refine ⟨set.first?_eq_head?_all context text, set.first?_eq_head?_firsts context text,
    set.firsts_sublist_all context text, set.flatten_blocks context text, set.map_some_firsts context text,
    set.mem_all_iff context text, set.occursIn_eq_false_iff text, fun h => ?_⟩
  have hall := set.all_eq_nil_of_occursIn_eq_false context text h
  refine ⟨?_, hall, ?_⟩
  · rw [first?_eq_head?_all, hall, List.head?_nil]
  · exact List.sublist_nil.mp (hall ▸ set.firsts_sublist_all context text)

/-- Two cues of a row limit are declined, the zero and the span of time, and the other three give values in the
order of the rules. A cue that is declined is still found, and without a cue there is nothing. -/
theorem readings_agree_limits :
    let set := Lexicon.limitRules
    let text := "the last 7 or last 8 of the first 3 days, top 0, limit 4"
    set.all () text = [4, 7, 8]
      ∧ set.first? () text = some 4
      ∧ set.firsts () text = [4, 7]
      ∧ set.blocks () text = [[4], [7, 8]]
      ∧ set.all () "top 0" = [] ∧ set.occursIn "top 0" = true
      ∧ set.occursIn "orders of last week" = false
      ∧ set.first? () "orders of last week" = none
      ∧ set.all () "orders of last week" = []
      ∧ set.firsts () "orders of last week" = [] := by
  intro set text
  have hall : set.all () text = [4, 7, 8] := by decide +kernel
  have hblocks : set.blocks () text = [[4], [7, 8]] := by decide +kernel
  have hnone : set.occursIn "orders of last week" = false := by decide +kernel
  obtain ⟨hfirst, -, -, -, hfirsts, -⟩ := set.readings_agree () text
  obtain ⟨-, -, -, -, -, -, -, hnothing⟩ := set.readings_agree () "orders of last week"
  rw [hall] at hfirst
  rw [hblocks] at hfirsts
  have hfirsts' : set.firsts () text = [4, 7] :=
    List.map_injective_iff.mpr (Option.some_injective Nat) hfirsts
  exact ⟨hall, hfirst, hfirsts', hblocks, by decide +kernel, by decide +kernel, hnone, hnothing hnone⟩

end RuleSet

end TextToSql
