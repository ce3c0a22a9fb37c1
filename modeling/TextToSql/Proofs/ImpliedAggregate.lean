import TextToSql.Proofs.Intent.Filter
import TextToSql.Proofs.Intent.Grouping
import TextToSql.Proofs.Pattern.Occurrence
import TextToSql.Proofs.Pattern.Operand
import TextToSql.Proofs.Pattern.Place

/-!
# Aggregates implied by keywords

The threshold of a `having` phrase is put on a column, under the aggregate that a keyword of the question
implies. Of the keywords before the term that one should count which starts last. But each keyword, and the
term as well, is looked up in the text, and so stands for the first place where it can be found: further
places of a keyword are not seen, nor is the term itself where its characters stand in the text before.

* `Text.firstIndex?_eq_some_iff` : a search finds the first place of a part;
* `latestBefore_impliedAggregate?` : the aggregate of the keyword whose first place is the last one;
* `having_of_lower` : what is compared for a match of the rule.
-/

namespace TextToSql

namespace Text

/-! ## Places of a part -/

/-- A part starts in a text behind `i` characters. -/
def StartsAt (part text : List Char) (i : Nat) : Prop :=
  ∃ before after, text = before ++ (part ++ after) ∧ before.length = i

/-- A part starts in a text behind `i` characters, and not before. -/
def FirstAt (part text : List Char) (i : Nat) : Prop :=
  StartsAt part text i ∧ ∀ j < i, ¬ StartsAt part text j

/-- A part starts where it is a prefix of what is left of the text. -/
theorem startsAt_iff (part text : List Char) (i : Nat) :
    StartsAt part text i ↔ i ≤ text.length ∧ part <+: text.drop i := by
  constructor
  · rintro ⟨before, after, rfl, rfl⟩
    rw [List.drop_left, List.length_append]
    exact ⟨Nat.le_add_right _ _, List.prefix_append part after⟩
  · rintro ⟨hi, after, hafter⟩
    exact ⟨text.take i, after, by rw [hafter, List.take_append_drop], List.length_take_of_le hi⟩

instance (part text : List Char) (i : Nat) : Decidable (StartsAt part text i) :=
  decidable_of_iff _ (startsAt_iff part text i).symm

instance (part text : List Char) (i : Nat) : Decidable (FirstAt part text i) :=
  inferInstanceAs (Decidable (StartsAt part text i ∧ ∀ j < i, ¬ StartsAt part text j))

/-- A part starts at once where it is a prefix. -/
theorem startsAt_zero_iff (part text : List Char) : StartsAt part text 0 ↔ part <+: text := by
  simp [startsAt_iff]

/-- In an empty text, only an empty part starts. -/
theorem startsAt_nil_iff (part : List Char) (i : Nat) : StartsAt part [] i ↔ part = [] ∧ i = 0 := by
  simp [startsAt_iff, and_comm]

/-- Behind a character, a part starts one character further on. -/
theorem startsAt_cons_succ_iff (part text : List Char) (c : Char) (i : Nat) :
    StartsAt part (c :: text) (i + 1) ↔ StartsAt part text i := by
  simp [startsAt_iff]

/-- **A search finds the first place of a part.** -/
theorem firstIndex?_eq_some_iff (part text : List Char) (i : Nat) :
    firstIndex? part text = some i ↔ FirstAt part text i := by
  induction text generalizing i with
  | nil =>
      simp only [FirstAt, startsAt_nil_iff, firstIndex?, List.isEmpty_iff]
      by_cases hpart : part = []
      · rw [if_pos hpart, Option.some.injEq]
        constructor
        · rintro rfl
          exact ⟨⟨hpart, rfl⟩, fun j hj => absurd hj (Nat.not_lt_zero j)⟩
        · rintro ⟨⟨-, rfl⟩, -⟩
          rfl
      · simp [hpart]
  | cons c text ih =>
      have hzero := startsAt_zero_iff part (c :: text)
      by_cases hprefix : part <+: c :: text
      · rw [firstIndex?, if_pos (List.isPrefixOf_iff_prefix.mpr hprefix), Option.some.injEq]
        constructor
        · rintro rfl
          exact ⟨hzero.mpr hprefix, fun j hj => absurd hj (Nat.not_lt_zero j)⟩
        · rintro ⟨-, hfirst⟩
          by_contra hi
          exact hfirst 0 (by omega) (hzero.mpr hprefix)
      -- the part is looked for behind the character
      · rw [firstIndex?, if_neg (mt List.isPrefixOf_iff_prefix.mp hprefix)]
        cases i with
        | zero => simp [FirstAt, hzero, hprefix]
        | succ i =>
            rw [Option.map_eq_some_iff]
            simp only [Nat.succ.injEq, exists_eq_right, ih, FirstAt, startsAt_cons_succ_iff]
            refine and_congr_right fun _ => ⟨fun h j hj => ?_, fun h j hj => ?_⟩
            · cases j with
              | zero => exact mt hzero.mp hprefix
              | succ j =>
                  rw [startsAt_cons_succ_iff]
                  exact h j (by omega)
            · rw [← startsAt_cons_succ_iff part text c]
              exact h (j + 1) (by omega)

/-- A part that starts somewhere has a first place. -/
theorem StartsAt.exists_firstAt {part text : List Char} {i : Nat} (h : StartsAt part text i) :
    ∃ j ≤ i, FirstAt part text j := by
  have hsome : ∃ j, StartsAt part text j := ⟨i, h⟩
  exact ⟨Nat.find hsome, Nat.find_min' hsome h, Nat.find_spec hsome, fun j hj => Nat.find_min hsome hj⟩

/-- A part that is not empty starts with the character at its place. -/
theorem StartsAt.getElem?_eq {part text : List Char} {i : Nat} (h : StartsAt part text i) (hne : part ≠ []) :
    text[i]? = part.head? := by
  obtain ⟨before, after, rfl, rfl⟩ := h
  rw [List.getElem?_append_right (Nat.le_refl _), Nat.sub_self, ← List.head?_eq_getElem?]
  exact List.head?_append_of_ne_nil part hne

end Text

open Pattern Text

namespace Intent

open Lexicon Sql

/-! ## The last entry -/

/-- An entry of a list that is behind no other, if the list has entries. -/
def Latest {α : Type} (entries : List (Nat × α)) : Option (Nat × α) → Prop
  | none => entries = []
  | some entry => entry ∈ entries ∧ ∀ other ∈ entries, other.1 ≤ entry.1

/-- The later one of two entries. -/
def later {α : Type} (best : Option (Nat × α)) (candidate : Nat × α) : Option (Nat × α) :=
  match best with
  | some current => if candidate.1 ≤ current.1 then some current else some candidate
  | none => some candidate

/-- The later one of the latest entry and another one is the latest of both. -/
theorem Latest.later {α : Type} {entries : List (Nat × α)} {best : Option (Nat × α)} (h : Latest entries best)
    (candidate : Nat × α) : Latest (entries ++ [candidate]) (later best candidate) := by
  cases best with
  | none =>
      obtain rfl : entries = [] := h
      exact ⟨List.mem_singleton_self _, fun other hother => by rw [List.mem_singleton.mp hother]⟩
  | some current =>
      obtain ⟨hmem, hmax⟩ := h
      rw [Intent.later]
      split
      · next hle =>
          refine ⟨List.mem_append_left _ hmem, fun other hother => ?_⟩
          rcases List.mem_append.mp hother with hother | hother
          · exact hmax other hother
          · rwa [List.mem_singleton.mp hother]
      · next hlt =>
          refine ⟨List.mem_append_right _ (List.mem_singleton_self _), fun other hother => ?_⟩
          rcases List.mem_append.mp hother with hother | hother
          · exact (hmax other hother).trans (Nat.le_of_not_le hlt)
          · rw [List.mem_singleton.mp hother]

/-- Taking the later one again and again gives the latest entry of a list. -/
theorem latest_foldl_later {α : Type} (entries : List (Nat × α)) :
    Latest entries (entries.foldl later none) := by
  induction entries using List.reverseRecOn with
  | nil => rfl
  | append_singleton entries candidate ih =>
      rw [List.foldl_append]
      exact ih.later candidate

/-! ## Keywords before a place -/

/-- The aggregate of the keyword that starts last before a place; none, if no keyword starts before it. -/
def LatestBefore (starts : String → Nat → Prop) (place : Nat) : Option Aggregate → Prop
  | none => ∀ entry ∈ aggregateWords, ∀ i < place, ¬ starts entry.1 i
  | some function => ∃ entry ∈ aggregateWords, entry.2 = function ∧ ∃ i < place, starts entry.1 i
      ∧ ∀ other ∈ aggregateWords, ∀ j < place, starts other.1 j → j ≤ i

/-- **The implied aggregate** is that of the keyword whose first place is the last one before the first place
of the term. -/
theorem latestBefore_impliedAggregate? {text term : List Char} {place : Nat} (h : FirstAt term text place) :
    LatestBefore (fun word => FirstAt word.toList text) place (impliedAggregate? text term) := by
  let starts : String → Option Nat := fun word => (firstIndex? word.toList text).filter (· < place)
  let entries : List (Nat × Aggregate) :=
    aggregateWords.filterMap fun entry => (starts entry.1).map fun i => (i, entry.2)
  have himplied : impliedAggregate? text term = (entries.foldl later none).map Prod.snd := by
    rw [impliedAggregate?, (firstIndex?_eq_some_iff term text place).mpr h]
    dsimp only
    congr 2
    funext best candidate
    cases best <;> rfl
  have hstarts : ∀ word i, starts word = some i ↔ FirstAt word.toList text i ∧ i < place := by
    intro word i
    rw [Option.filter_eq_some_iff, firstIndex?_eq_some_iff, decide_eq_true_eq]
  have hentries : ∀ i function, (i, function) ∈ entries
      ↔ ∃ entry ∈ aggregateWords, entry.2 = function ∧ FirstAt entry.1.toList text i ∧ i < place := by
    intro i function
    simp only [entries, List.mem_filterMap, Option.map_eq_some_iff, hstarts, Prod.mk.injEq]
    constructor
    · rintro ⟨entry, hentry, j, hj, rfl, rfl⟩
      exact ⟨entry, hentry, rfl, hj⟩
    · rintro ⟨entry, hentry, rfl, hi⟩
      exact ⟨entry, hentry, i, hi, rfl, rfl⟩
  have hlatest := latest_foldl_later entries
  rw [himplied]
  cases hbest : entries.foldl later none with
  | none =>
      rw [hbest] at hlatest
      intro entry hentry i hi hfirst
      have hmem := (hentries i entry.2).mpr ⟨entry, hentry, rfl, hfirst, hi⟩
      rw [show entries = [] from hlatest] at hmem
      cases hmem
  | some best =>
      rw [hbest] at hlatest
      obtain ⟨hmem, hmax⟩ := hlatest
      obtain ⟨entry, hentry, hfunction, hfirst, hlt⟩ := (hentries best.1 best.2).mp hmem
      refine ⟨entry, hentry, hfunction, best.1, hlt, hfirst, fun other hother j hj hfirst' => ?_⟩
      exact hmax (j, other.2) ((hentries j other.2).mpr ⟨other, hother, rfl, hfirst', hj⟩)

/-- Two keywords do not start at the same place. -/
theorem eq_of_startsAt {text : List Char} {i : Nat} {entry other : String × Aggregate}
    (hentry : entry ∈ aggregateWords) (hother : other ∈ aggregateWords)
    (h : StartsAt entry.1.toList text i) (h' : StartsAt other.1.toList text i) : entry = other := by
  have hne : ∀ entry ∈ aggregateWords, entry.1.toList ≠ [] := by decide
  have hheads : ∀ entry ∈ aggregateWords, ∀ other ∈ aggregateWords,
      entry.1.toList.head? = other.1.toList.head? → entry = other := by decide
  refine hheads entry hentry other hother ?_
  rw [← h.getElem?_eq (hne entry hentry), ← h'.getElem?_eq (hne other hother)]

/-- At most one aggregate is that of the keyword that starts last before a place. -/
theorem LatestBefore.unique {text : List Char} {place : Nat} {implied implied' : Option Aggregate}
    (h : LatestBefore (fun word => StartsAt word.toList text) place implied)
    (h' : LatestBefore (fun word => StartsAt word.toList text) place implied') : implied = implied' := by
  cases implied with
  | none =>
      cases implied' with
      | none => rfl
      | some function' =>
          obtain ⟨entry, hentry, -, i, hi, hstarts, -⟩ := h'
          exact absurd hstarts (h entry hentry i hi)
  | some function =>
      obtain ⟨entry, hentry, rfl, i, hi, hstarts, hmax⟩ := h
      cases implied' with
      | none => exact absurd hstarts (h' entry hentry i hi)
      | some function' =>
          obtain ⟨other, hother, rfl, j, hj, hstarts', hmax'⟩ := h'
          obtain rfl : i = j := Nat.le_antisymm (hmax' entry hentry i hi hstarts) (hmax other hother j hj hstarts')
          rw [eq_of_startsAt hentry hother hstarts hstarts']

section FirstPlaces

variable {text : List Char} {first place : Nat} {implied : Option Aggregate}

/-- No aggregate is implied exactly if no keyword starts before the place. -/
theorem LatestBefore.eq_none_iff (h : LatestBefore (fun word => FirstAt word.toList text) first implied) :
    implied = none ↔ ∀ entry ∈ aggregateWords, ∀ i < first, ¬ StartsAt entry.1.toList text i := by
  cases implied with
  | none =>
      refine iff_of_true rfl fun entry hentry i hi hstarts => ?_
      obtain ⟨j, hj, hfirst⟩ := hstarts.exists_firstAt
      exact h entry hentry j (by omega) hfirst
  | some function =>
      obtain ⟨entry, hentry, -, i, hi, hfirst, -⟩ := h
      exact iff_of_false nofun fun hnone => hnone entry hentry i hi hfirst.1

/-- The keyword whose first place is the last one before the first place of a term is the one that starts last
before the term, if before the term each keyword starts at its first place only, and before that of the term. -/
theorem LatestBefore.of_firstAt (h : LatestBefore (fun word => FirstAt word.toList text) first implied)
    (hle : first ≤ place)
    (honly : ∀ entry ∈ aggregateWords, ∀ i < place, StartsAt entry.1.toList text i →
      FirstAt entry.1.toList text i ∧ i < first) :
    LatestBefore (fun word => StartsAt word.toList text) place implied := by
  cases implied with
  | none =>
      intro entry hentry i hi hstarts
      obtain ⟨hfirst, hlt⟩ := honly entry hentry i hi hstarts
      exact h entry hentry i hlt hfirst
  | some function =>
      obtain ⟨entry, hentry, hfunction, i, hi, hfirst, hmax⟩ := h
      refine ⟨entry, hentry, hfunction, i, by omega, hfirst.1, fun other hother j hj hstarts => ?_⟩
      obtain ⟨hfirst', hlt⟩ := honly other hother j hj hstarts
      exact hmax other hother j hlt hfirst'

end FirstPlaces

instance (starts : String → Nat → Prop) [∀ word i, Decidable (starts word i)] (place : Nat)
    (implied : Option Aggregate) : Decidable (LatestBefore starts place implied) :=
  match implied with
  | none => inferInstanceAs (Decidable (∀ entry ∈ aggregateWords, ∀ i < place, ¬ starts entry.1 i))
  | some function => inferInstanceAs (Decidable (∃ entry ∈ aggregateWords, entry.2 = function
      ∧ ∃ i < place, starts entry.1 i ∧ ∀ other ∈ aggregateWords, ∀ j < place, starts other.1 j → j ≤ i))

/-! ## Matches of the rule -/

/-- Where the term of a match stands: behind the word `having` and white space, at the start of the match. -/
def HasTerm (text : String) (m : Match) (term : String) (place : Nat) : Prop :=
  ∃ earlier cue white rest later, text = earlier ++ m.text ++ later
    ∧ m.offset = earlier.utf8ByteSize ∧ m.text = cue ++ white ++ term ++ rest
    ∧ Folds "having".toList cue.toList ∧ IsRun .space white.toList
    ∧ WholeRun .word term.toList (rest ++ later).toList ∧ place = (earlier ++ cue ++ white).length

/-- The term of a match starts at its place. -/
theorem HasTerm.startsAt {text : String} {m : Match} {term : String} {place : Nat}
    (h : HasTerm text m term place) : StartsAt term.toList text.toList place := by
  obtain ⟨earlier, cue, white, rest, later, htext, -, hmatch, -, -, -, rfl⟩ := h
  refine ⟨(earlier ++ cue ++ white).toList, (rest ++ later).toList, ?_, String.length_toList⟩
  rw [htext, hmatch]
  simp only [String.toList_append, List.append_assoc]

/-- The rule for terms behind the word `having` goes before the other rules. -/
def havingRule : Rule Selection Condition := havingRules.rules.head (List.cons_ne_nil _ _)

/-- The rule looks for a term behind the word `having`, a comparison and a number. -/
theorem havingRule_pattern : ∃ texts, havingRule.pattern = lit "having" ++ spaces ++ capture word ++ spaces
    ++ capture (oneOf texts) ++ spaces ++ capture digits :=
  ⟨_, rfl⟩

/-- **A match of the rule** captures a term, what it is compared by and a number, and the term stands behind
the word `having`. -/
theorem exists_hasTerm (text : String) (m : Match) (hm : m ∈ havingRule.pattern.matchesIn text) :
    ∃ term op number place, m.captures = [term, op, number] ∧ HasTerm text m term place := by
  obtain ⟨texts, hpattern⟩ := havingRule_pattern
  rw [hpattern] at hm
  obtain ⟨u, r, htext, hhead, rfl⟩ := (finds_matchesIn _ text).exists_place m hm
  have hr := List.mem_of_mem_head? hhead
  simp only [runs_append_assoc] at hr
  obtain ⟨cue, hcue, r₁, hr₁, rfl⟩ := mem_runs_append.mp hr
  obtain ⟨white, hwhite, r₂, hr₂, rfl⟩ := mem_runs_append.mp hr₁
  obtain ⟨captured, hcaptured, r₃, hr₃, rfl⟩ := mem_runs_append.mp hr₂
  obtain ⟨term, hterm, rfl⟩ := List.mem_map.mp hcaptured
  obtain ⟨hcuefolds, -, hcuecaptures⟩ := (mem_runs_lit "having" _ _ cue).mp hcue
  obtain ⟨⟨hwhiterun, -⟩, hwhitecaptures⟩ := wholeRun_of_mem_runs .space _ _ white hwhite
  obtain ⟨htermrun, htermcaptures⟩ := wholeRun_of_mem_runs .word _ _ term hterm
  have hrest := taken_append_rest _ _ _ r₃ hr₃
  obtain ⟨op, number, -, hcaptures⟩ :
      ∃ op number, ((oneOf texts).Takes op ∧ digits.Takes number) ∧ [op, number] = r₃.captures := by
    simpa using yields_of_mem_runs _ _ _ r₃ hr₃
  refine ⟨String.ofList term.taken, String.ofList op, String.ofList number, _, ?_,
    String.ofList u, String.ofList cue.taken, String.ofList white.taken, String.ofList r₃.taken,
    String.ofList r₃.rest, ?_, ?_, ?_, ?_, ?_, ?_, rfl⟩
  · simp [Run.toMatch, Run.followedBy, Run.captured, hcuecaptures, hwhitecaptures, htermcaptures, ← hcaptures]
  · exact eq_append_of_toList text _ _ _ htext
  · simp only [Run.toMatch, String.utf8ByteSize_ofList, Nat.zero_add]
  · simp only [Run.toMatch, Run.followedBy, Run.captured, String.ofList_append, String.append_assoc]
  · simpa only [String.toList_ofList] using hcuefolds
  · rwa [String.toList_ofList]
  · rw [String.toList_append, String.toList_ofList, String.toList_ofList, String.toList_ofList]
    change r₃.taken ++ r₃.rest = term.rest at hrest
    rwa [hrest]

/-! ## Thresholds of terms -/

/-- A column under an aggregate, if one is implied. -/
def underImplied (implied : Option Aggregate) (ref : ColumnRef) : Expr :=
  match implied with
  | some function => .aggregated function (.column ref)
  | none => .column ref

/-- **The threshold of a term** in a text in lower case. The column that the term finds is compared with the
number, under the aggregate of the keyword whose first place is the last one before the first place of the
term; it is bare exactly if no keyword starts before that place. This is the keyword that starts last before
the term of the match, if before it each keyword starts at its first place only, and before that of the term.
The comparison is a condition on any groups that there are. -/
theorem having_of_lower (s : Selection) (hlower : Text.lowerOf s.text = s.text) (m : Match)
    (hm : m ∈ havingRule.pattern.matchesIn s.text) :
    ∃ term op number place, m.captures = [term, op, number] ∧ HasTerm s.text m term place
      ∧ ∀ ref, s.schema.columnLike? term = some ref →
        ∃ first ≤ place, FirstAt term.toList s.text.toList first
          ∧ ∃ implied, LatestBefore (fun word => FirstAt word.toList s.text.toList) first implied
            ∧ havingRule.action s m.captures
                = (comparison? op).map (fun op => .compare (underImplied implied ref) op (.number number))
            ∧ (implied = none
                ↔ ∀ entry ∈ aggregateWords, ∀ i < first, ¬ StartsAt entry.1.toList s.text.toList i)
            ∧ ((∀ entry ∈ aggregateWords, ∀ i < place, StartsAt entry.1.toList s.text.toList i →
                  FirstAt entry.1.toList s.text.toList i ∧ i < first) →
                LatestBefore (fun word => StartsAt word.toList s.text.toList) place implied)
            ∧ ∀ groups ≠ [], ∀ condition, havingRule.action s m.captures = some condition →
                ∃ p, havingOf s groups = some p ∧ condition ∈ p.atoms := by
  obtain ⟨term, op, number, place, hcaptures, hterm⟩ := exists_hasTerm s.text m hm
  refine ⟨term, op, number, place, hcaptures, hterm, fun ref href => ?_⟩
  obtain ⟨first, hle, hfirst⟩ := hterm.startsAt.exists_firstAt
  have hlatest := latestBefore_impliedAggregate? hfirst
  refine ⟨first, hle, hfirst, impliedAggregate? s.text.toList term.toList, hlatest, ?_, hlatest.eq_none_iff,
    hlatest.of_firstAt hle, ?_⟩
  · have htext : Text.lower s.text.toList = s.text.toList := by
      rw [← String.toList_ofList (l := Text.lower s.text.toList)]
      exact congrArg String.toList hlower
    have haction : havingRule.action = havingCondition := rfl
    rw [haction, hcaptures, havingCondition, href, htext]
    cases comparison? op <;> rfl
  · intro groups hgroups condition hcondition
    have hvalue : condition ∈ havingRules.all s s.text :=
      List.mem_flatMap.mpr ⟨havingRule, List.head_mem _, List.mem_filterMap.mpr ⟨m, hm, hcondition⟩⟩
    have hmem := (mem_foldl_addNew [] _ condition).mpr (.inr hvalue)
    obtain ⟨p, hp, hatoms⟩ := exists_conjunction _ (List.ne_nil_of_mem hmem)
    refine ⟨p, ?_, by rwa [hatoms]⟩
    rw [havingOf, List.isEmpty_eq_false_iff.mpr hgroups]
    exact hp

/-- A schema with a table of products and their scores. -/
def scoredSchema : Schema where
  tables := [⟨"products", ["name", "score"]⟩]
  tableAliases := []
  columnAliases := []
  relationships := []
  metrics := []
  timePhrases := []

/-- Where a total is asked for behind a count, the threshold is one of the total. -/
theorem having_of_lower_scoredSchema :
    let s : Selection := ⟨scoredSchema, ["products"], "count and total of products by name having score > 5"⟩
    Text.lowerOf s.text = s.text
      ∧ ∃ m ∈ havingRule.pattern.matchesIn s.text, HasTerm s.text m "score" 43
        ∧ havingRule.action s m.captures
            = some (.compare (.aggregated .sum (.of "products" "score")) .greater (.number "5")) := by
  intro s
  have hlower : Text.lowerOf s.text = s.text := by decide +kernel
  have hmatch : ["score", ">", "5"] ∈ (havingRule.pattern.matchesIn s.text).map Match.captures := by
    decide +kernel
  obtain ⟨m, hmem, hm_captures⟩ := List.mem_map.mp hmatch
  obtain ⟨term, op, number, place, hcaptures, hterm, hvalue⟩ := having_of_lower s hlower m hmem
  obtain ⟨rfl, rfl, rfl⟩ : "score" = term ∧ ">" = op ∧ "5" = number := by
    rw [hm_captures] at hcaptures
    simpa using hcaptures
  obtain ⟨first, -, hfirst, implied, -, haction, -, hnearest, -⟩ := hvalue (.of "products" "score")
    (by decide +kernel)
  -- the term starts at one place only
  have hplaces : ∀ i ≤ s.text.toList.length, StartsAt "score".toList s.text.toList i → i = 43 := by
    decide +kernel
  have hplace : ∀ i, StartsAt "score".toList s.text.toList i → i = 43 :=
    fun i hi => hplaces i ((startsAt_iff _ _ i).mp hi).1 hi
  obtain rfl := hplace place hterm.startsAt
  obtain rfl := hplace first hfirst.1
  have hsum : LatestBefore (fun word => StartsAt word.toList s.text.toList) 43 (some .sum) := by decide +kernel
  obtain rfl := (hnearest (by decide +kernel)).unique hsum
  exact ⟨hlower, m, hmem, hterm, haction.trans (by decide +kernel)⟩

/-- A total that is asked for once more behind a count is not seen: the keyword that starts last before the
term is `total`, and yet the threshold is one of the count. -/
theorem not_nearest_scoredSchema :
    let s : Selection :=
      ⟨scoredSchema, ["products"], "total and count and total of products by name having score > 5"⟩
    Text.lowerOf s.text = s.text
      ∧ tablesOf scoredSchema s.text = s.tables
      ∧ ∃ m ∈ havingRule.pattern.matchesIn s.text, HasTerm s.text m "score" 53
        ∧ s.schema.columnLike? "score" = some (.of "products" "score")
        ∧ LatestBefore (fun word => StartsAt word.toList s.text.toList) 53 (some .sum)
        ∧ ¬ LatestBefore (fun word => StartsAt word.toList s.text.toList) 53 (some .count)
        ∧ havingRule.action s m.captures
            = some (.compare (.aggregated .count (.of "products" "score")) .greater (.number "5"))
        ∧ havingOf s (groupsOf s (projectionOf s))
            = some (.atom (.compare (.aggregated .count (.of "products" "score")) .greater (.number "5"))) := by
  intro s
  have hmatch : (46, "having score > 5", ["score", ">", "5"])
      ∈ (havingRule.pattern.matchesIn s.text).map fun m => (m.offset, m.text, m.captures) := by
    decide +kernel
  obtain ⟨⟨offset, text, captures⟩, hmem, hfields⟩ := List.mem_map.mp hmatch
  obtain ⟨rfl, rfl, rfl⟩ : offset = 46 ∧ text = "having score > 5" ∧ captures = ["score", ">", "5"] := by
    simpa using hfields
  refine ⟨by decide +kernel, by decide +kernel, _, hmem, ?_, by decide +kernel, by decide +kernel,
    by decide +kernel, by decide +kernel, ?_⟩
  · have hspace : ∀ c ∈ (" > 5" ++ "").toList.head?, CharClass.word.contains c = false := by
      intro c hc
      obtain rfl : ' ' = c := by simpa using hc
      decide +kernel
    exact ⟨"total and count and total of products by name ", "having", " ", " > 5", "", by decide, by decide,
      by decide, by decide +kernel, by decide +kernel, ⟨by decide +kernel, hspace⟩, by decide⟩
  · have hgroups : groupsOf s (projectionOf s) = [.of "products" "name"] := by decide +kernel
    have hconditions : (havingRules.all s s.text).foldl addNew []
        = [.compare (.aggregated .count (.of "products" "score")) .greater (.number "5")] := by
      decide +kernel
    rw [hgroups, havingOf, hconditions]
    rfl

end Intent

end TextToSql
