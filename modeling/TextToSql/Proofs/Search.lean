import TextToSql.Proofs.Intent.Filter
import TextToSql.Proofs.Sql.Tokens

/-!
# What a search for a substring finds

A needle is written between two percent signs, as the pattern of `ILIKE`. In such a pattern the percent
sign, the underscore and the backslash have a meaning of their own. A needle is a word, so it holds no
percent sign and no backslash, but it may hold underscores, and these stand for any character: the search
finds the needle with any character in the place of each underscore.

Which characters are equal up to case is left to the database: the statements hold for every such relation.

* `likes_between_percents` : what a pattern between two percent signs matches;
* `not_holds_of_underscore` : an underscore finds what does not hold the needle;
* `Intent.likes_needle` : what the pattern of a needle matches;
* `Intent.search_of_mem_needles` : the conditions for substrings are searches for needles, and what these find.
-/

namespace TextToSql

namespace Sql

/-! ## Patterns of texts -/

/-- Whether a text matches a pattern as a whole: a percent sign stands for any text, an underscore for any
character, and a backslash takes its meaning from the character behind it. Every other character stands for
those that are the same up to case. -/
def likes (same : Char → Char → Bool) : List Char → List Char → Bool
  | [], s => s.isEmpty
  | '%' :: p, s => s.tails.any (likes same p)
  | '_' :: _, [] => false
  | '_' :: p, _ :: s => likes same p s
  | ['\\'], _ => false
  | '\\' :: _ :: _, [] => false
  | '\\' :: c :: p, d :: s => same c d && likes same p s
  | _ :: _, [] => false
  | c :: p, d :: s => same c d && likes same p s

/-- A text holds another one: some part of it is the other text, character by character. -/
def Holds (same : Char → Char → Prop) (needle s : List Char) : Prop :=
  ∃ before part after, s = before ++ part ++ after ∧ List.Forall₂ same needle part

/-- What a character of a pattern stands for, if it is no percent sign and no backslash. -/
def Stands (same : Char → Char → Bool) (n c : Char) : Prop := n = '_' ∨ same n c

variable (same : Char → Char → Bool)

/-- A character that is no percent sign and no backslash takes one character. -/
theorem likes_cons (n : Char) (p s : List Char) (hpercent : n ≠ '%') (hbackslash : n ≠ '\\') :
    likes same (n :: p) s ↔ ∃ c s', s = c :: s' ∧ Stands same n c ∧ likes same p s' := by
  by_cases hunderscore : n = '_'
  · subst hunderscore
    cases s <;> simp [likes, Stands]
  · cases s <;> simp [likes, Stands, hbackslash, hunderscore]

/-- A percent sign takes any text. -/
theorem likes_percent (p s : List Char) :
    likes same ('%' :: p) s ↔ ∃ before rest, s = before ++ rest ∧ likes same p rest := by
  rw [likes, List.any_eq_true]
  constructor
  · rintro ⟨rest, hrest, hlikes⟩
    obtain ⟨before, rfl⟩ := (List.mem_tails _ _).mp hrest
    exact ⟨before, rest, rfl, hlikes⟩
  · rintro ⟨before, rest, rfl, hlikes⟩
    exact ⟨rest, (List.mem_tails _ _).mpr ⟨before, rfl⟩, hlikes⟩

/-- A pattern before a percent sign matches what it stands for and any text behind it. -/
theorem likes_before_percent (needle s : List Char) (h : ∀ n ∈ needle, n ≠ '%' ∧ n ≠ '\\') :
    likes same (needle ++ ['%']) s
      ↔ ∃ part after, s = part ++ after ∧ List.Forall₂ (Stands same) needle part := by
  induction needle generalizing s with
  | nil =>
      constructor
      · exact fun _ => ⟨[], s, rfl, .nil⟩
      · exact fun _ => (likes_percent same [] s).mpr ⟨s, [], (List.append_nil s).symm, rfl⟩
  | cons n needle ih =>
      obtain ⟨⟨hpercent, hbackslash⟩, hneedle⟩ := List.forall_mem_cons.mp h
      rw [List.cons_append, likes_cons same n _ s hpercent hbackslash]
      constructor
      · rintro ⟨c, s', rfl, hc, hlikes⟩
        obtain ⟨part, after, rfl, hpart⟩ := (ih s' hneedle).mp hlikes
        exact ⟨c :: part, after, rfl, .cons hc hpart⟩
      · rintro ⟨_, after, rfl, hpart⟩
        cases hpart with
        | cons hc hpart => exact ⟨_, _, rfl, hc, (ih _ hneedle).mpr ⟨_, after, rfl, hpart⟩⟩

/-- **A pattern between two percent signs** matches the texts that hold what it stands for. -/
theorem likes_between_percents (needle s : List Char) (h : ∀ n ∈ needle, n ≠ '%' ∧ n ≠ '\\') :
    likes same ('%' :: needle ++ ['%']) s ↔ Holds (Stands same) needle s := by
  rw [List.cons_append, likes_percent]
  constructor
  · rintro ⟨before, rest, rfl, hlikes⟩
    obtain ⟨part, after, rfl, hpart⟩ := (likes_before_percent same needle rest h).mp hlikes
    exact ⟨before, part, after, (List.append_assoc _ _ _).symm, hpart⟩
  · rintro ⟨before, part, after, rfl, hpart⟩
    exact ⟨before, part ++ after, List.append_assoc _ _ _,
      (likes_before_percent same needle _ h).mpr ⟨part, after, rfl, hpart⟩⟩

/-- Without an underscore, a pattern stands for itself up to case. -/
theorem forall₂_stands_iff (needle part : List Char) (h : '_' ∉ needle) :
    List.Forall₂ (Stands same) needle part ↔ List.Forall₂ (fun n c => same n c) needle part := by
  induction needle generalizing part with
  | nil => simp only [List.forall₂_nil_left_iff]
  | cons n needle ih =>
      rw [List.mem_cons, not_or] at h
      have hstands : ∀ c, Stands same n c ↔ same n c := fun c => or_iff_right (Ne.symm h.1)
      cases part with
      | nil => simp
      | cons c part => rw [List.forall₂_cons, List.forall₂_cons, ih part h.2, hstands]

/-- **An underscore finds too much**: the needle with another character in the place of each underscore is
found, but it does not hold the needle. -/
theorem not_holds_of_underscore (needle : List Char) (c : Char) (hunderscore : '_' ∈ needle)
    (hself : ∀ n, same n n) (hc : same '_' c = false) :
    Holds (Stands same) needle (needle.map fun n => if n = '_' then c else n)
      ∧ ¬ Holds (fun n c => same n c) needle (needle.map fun n => if n = '_' then c else n) := by
  constructor
  · refine ⟨[], _, [], (List.append_nil _).symm, ?_⟩
    rw [List.forall₂_map_right_iff, List.forall₂_same]
    intro n _
    by_cases hn : n = '_'
    · exact .inl hn
    · rw [if_neg hn]
      exact .inr (hself n)
  · rintro ⟨before, part, after, hsplit, hpart⟩
    -- the part is as long as the whole text, so it is the whole text
    have hlength := congrArg List.length hsplit
    rw [List.length_append, List.length_append, List.length_map, hpart.length_eq] at hlength
    obtain rfl : before = [] := List.eq_nil_of_length_eq_zero (by omega)
    obtain rfl : after = [] := List.eq_nil_of_length_eq_zero (by omega)
    rw [List.nil_append, List.append_nil] at hsplit
    rw [← hsplit, List.forall₂_map_right_iff, List.forall₂_same] at hpart
    have hsame := hpart '_' hunderscore
    rw [if_pos rfl, hc] at hsame
    cases hsame

end Sql

namespace Intent

open Sql Pattern Unicode

/-! ## Needles -/

/-- What the rules for substrings search for in a text: the last part that a match captures. -/
def needles (text : String) : List String :=
  substringRules.rules.flatMap fun rule =>
    (rule.pattern.matchesIn text).filterMap fun m => m.captures.getLast?

/-- A needle is a word. -/
theorem isRun_of_mem_needles (text needle : String) (h : needle ∈ needles text) :
    IsRun .word needle.toList := by
  obtain ⟨rule, hrule, hmem⟩ := List.mem_flatMap.mp h
  obtain ⟨m, hm, hlast⟩ := List.mem_filterMap.mp hmem
  obtain ⟨cs, hcs, hcaptures⟩ := yields_of_mem_matchesIn _ text m hm
  obtain ⟨term, word, hword, rfl, -⟩ := captures_of_substringRules rule hrule cs hcs
  have hword' : m.captures.getLast? = some (String.ofList word) := by
    rw [hcaptures]
    rfl
  obtain rfl := Option.some.inj (hlast.symm.trans hword')
  rw [String.toList_ofList]
  exact isRun_of_takes_run .word word hword

/-- The conditions that the rules for substrings make are searches for the needles. -/
theorem exists_needle_of_mem_all (s : Selection) (text : String) (c : Condition)
    (h : c ∈ substringRules.all s text) :
    ∃ ref, ∃ needle ∈ needles text, c = .contains ref needle := by
  obtain ⟨rule, hrule, m, hm, haction⟩ := RuleSet.exists_match_of_mem_all _ s text c h
  obtain ⟨cs, hcs, hcaptures⟩ := yields_of_mem_matchesIn _ text m hm
  obtain ⟨term, word, -, rfl, hrule_action⟩ := captures_of_substringRules rule hrule cs hcs
  rw [hrule_action, hcaptures] at haction
  obtain ⟨ref, -, rfl⟩ := Option.map_eq_some_iff.mp haction
  refine ⟨ref, _, List.mem_flatMap.mpr ⟨rule, hrule, List.mem_filterMap.mpr ⟨m, hm, ?_⟩⟩, rfl⟩
  rw [hcaptures]
  rfl

/-- The pattern of a needle matches the texts that hold what the needle stands for. -/
theorem likes_needle (text needle : String) (h : needle ∈ needles text) (same : Char → Char → Bool)
    (s : List Char) :
    likes same ("%" ++ needle ++ "%").toList s ↔ Holds (Stands same) needle.toList s := by
  have hpattern : ("%" ++ needle ++ "%").toList = '%' :: needle.toList ++ ['%'] := by
    simp only [String.toList_append]
    rfl
  have hneedle : ∀ n ∈ needle.toList, n ≠ '%' ∧ n ≠ '\\' := by
    have hmeta : isWordChar '%' = false ∧ isWordChar '\\' = false := by decide +kernel
    intro n hn
    have hword : isWordChar n := (isRun_of_mem_needles text needle h).2 n hn
    constructor
    · rintro rfl
      exact Bool.false_ne_true (hmeta.1.symm.trans hword)
    · rintro rfl
      exact Bool.false_ne_true (hmeta.2.symm.trans hword)
  rw [hpattern]
  exact likes_between_percents same needle.toList s hneedle

/-- **What the searches for substrings find.** The conditions that the rules for substrings make of a text
are searches for its needles. The printed search is read back as the needle between two percent signs, in
one literal. As a pattern this matches the texts that hold the needle up to case with any character in the
place of each underscore: exactly the texts that hold the needle where it has no underscore, and more than
those where it has one. -/
theorem search_of_mem_needles (text : String) :
    (∀ s : Selection, ∀ c ∈ substringRules.all s text,
        ∃ ref, ∃ needle ∈ needles text, c = .contains ref needle)
      ∧ ∀ needle ∈ needles text, ∀ ref : ColumnRef,
          let pattern := "%" ++ needle ++ "%"
          Token.ofText? ((Condition.contains ref needle).print .quoted)
              = some (ref.tokens ++ [.word "ILIKE", .text pattern])
            ∧ ∀ same : Char → Char → Bool,
                (∀ s, likes same pattern.toList s ↔ Holds (Stands same) needle.toList s)
                  ∧ ('_' ∉ needle.toList →
                      ∀ s, likes same pattern.toList s ↔ Holds (fun n c => same n c) needle.toList s)
                  ∧ ('_' ∈ needle.toList → (∀ n, same n n) → (∃ c, same '_' c = false) →
                      ∃ s, likes same pattern.toList s
                        ∧ ¬ Holds (fun n c => same n c) needle.toList s) := by
  refine ⟨fun s c hc => exists_needle_of_mem_all s text c hc, ?_⟩
  intro needle h ref pattern
  have hlikes := likes_needle text needle h
  refine ⟨?_, ?_⟩
  · have hscans := scans_condition (.contains ref needle) trivial
    exact hscans.ofText?_eq.trans (congrArg some (List.append_assoc _ _ _))
  intro same
  refine ⟨hlikes same, ?_, ?_⟩
  · intro hunderscore s
    rw [hlikes same s]
    simp only [Holds, forall₂_stands_iff same _ _ hunderscore]
  · rintro hunderscore hself ⟨c, hc⟩
    obtain ⟨hfound, hnot⟩ := not_holds_of_underscore same needle.toList c hunderscore hself hc
    exact ⟨_, (hlikes same _).mpr hfound, hnot⟩

/-- The two needles of a question: the search for the one without an underscore finds what holds it. -/
theorem search_of_mem_needles_products :
    needles "products name contains phone and title like a_b" = ["phone", "a_b"]
      ∧ (∀ s, likes sameFold "%phone%".toList s ↔ Holds (fun n c => sameFold n c) "phone".toList s)
      ∧ ∃ s, likes sameFold "%a_b%".toList s ∧ ¬ Holds (fun n c => sameFold n c) "a_b".toList s := by
  have hneedles : needles "products name contains phone and title like a_b" = ["phone", "a_b"] := by
    decide +kernel
  obtain ⟨-, hsearch⟩ := search_of_mem_needles "products name contains phone and title like a_b"
  obtain ⟨-, hphone⟩ := hsearch "phone" (by rw [hneedles]; decide) (.of "products" "name")
  obtain ⟨-, hab⟩ := hsearch "a_b" (by rw [hneedles]; decide) (.of "products" "title")
  refine ⟨hneedles, (hphone sameFold).2.1 (by decide), ?_⟩
  exact (hab sameFold).2.2 (by decide) (fun n => beq_self_eq_true _) ⟨'x', by decide +kernel⟩

/-- The search for a needle with an underscore finds a text that does not hold the needle. -/
theorem not_search_of_underscore :
    "a_b" ∈ needles "products name contains a_b"
      ∧ (Condition.contains (.of "products" "name") "a_b").print .quoted
          = "\"products\".\"name\" ILIKE '%a_b%'"
      ∧ likes sameFold "%a_b%".toList "axb".toList
      ∧ ¬ Holds (fun n c => sameFold n c) "a_b".toList "axb".toList := by
  refine ⟨by decide +kernel, by decide +kernel, by decide +kernel, ?_⟩
  exact (not_holds_of_underscore sameFold "a_b".toList 'x' (by decide) (fun n => beq_self_eq_true _)
    (by decide +kernel)).2

end Intent

end TextToSql
