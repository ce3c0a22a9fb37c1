import TextToSql.Proofs.Sql.Closed
import TextToSql.Proofs.Sql.Undivided
import TextToSql.Proofs.Text.Words

/-!
# What a printed conjunction means

The predicates of a conjunction are printed one behind the other with `AND` between them, and a fragment is
written as it is, without parentheses. The text means the conjunction of the predicates as long as `OR`
divides no fragment and no fragment but the last one ends in a comment.

* `Predicate.conjoin_flattens` : a conjunction has the conditions of its members and is printed as these;
* `exists_reading_intercalate` : texts with `AND` between them are read as their conjunction;
* `exists_reading_conjoin` : the printed text of a conjunction has the value of the conjunction;
* `not_conjunction_of_alternative` : fragments that change the meaning of the text around them.
-/

namespace TextToSql.Sql

open Logic

namespace Logic

/-! ## Factors of a conjunction -/

/-- Tokens that are a conjunction of factors: `OR` does not divide them, and these are the parts between
the places where `AND` does. -/
structure IsTerm (depth : Nat) (ts : List Token) (es : List Logic) : Prop where
  undivided : cut .or .outside ts = some [ts]
  factors : ∃ parts, cut .and .outside ts = some parts ∧ parts.mapM (factor (read depth)) = some es

/-- A conjunction of factors is read as such. -/
theorem IsTerm.read_eq {depth : Nat} {ts : List Token} {es : List Logic} (h : IsTerm depth ts es) :
    read (depth + 1) ts = some (.either [.both es]) := by
  obtain ⟨hundivided, parts, hparts, hfactors⟩ := h
  simp [read, hundivided, conjunction, hparts, hfactors]

/-- The value of a conjunction of factors. -/
theorem value_term (σ : List Token → Truth) (es : List Logic) :
    (Logic.either [.both es]).value σ = .all (es.map (value σ)) := by
  rw [value, values_eq_map, List.map_singleton, Truth.any, List.foldr_cons, List.foldr_nil,
    Truth.either_no, value, values_eq_map]

/-- The factors are read by a reader to a depth that is not smaller than the number of tokens. -/
theorem IsTerm.of_length_le {depth depth' : Nat} {ts : List Token} {es : List Logic}
    (h : IsTerm depth ts es) (hle : ts.length ≤ depth') : IsTerm depth' ts es := by
  obtain ⟨hundivided, parts, hparts, hfactors⟩ := h
  refine ⟨hundivided, parts, hparts, factors_mono ts parts es (fun body hbody e he => ?_) hparts hfactors⟩
  exact read_of_length_lt depth depth' body e he (Nat.lt_of_lt_of_le hbody hle)

/-- A text that `OR` does not divide is read as a conjunction of factors. -/
theorem exists_isTerm (ts : List Token) (e : Logic) (h : ofTokens? ts = some e)
    (hundivided : cut .or .outside ts = some [ts]) :
    ∃ es, IsTerm ts.length ts es ∧ e = .either [.both es] := by
  rw [ofTokens?, read, hundivided, Option.bind_some] at h
  simp only [List.mapM_cons, List.mapM_nil, Option.bind_eq_bind, Option.pure_def, Option.bind_some,
    Option.map_eq_some_iff, Option.bind_eq_some_iff, Option.some.injEq] at h
  obtain ⟨_, ⟨e', hconjunction, rfl⟩, rfl⟩ := h
  obtain ⟨parts, hparts, hfactors⟩ := Option.bind_eq_some_iff.mp hconjunction
  obtain ⟨es, hes, rfl⟩ := Option.map_eq_some_iff.mp hfactors
  exact ⟨es, ⟨hundivided, parts, hparts, hes⟩, rfl⟩

/-- **Two conjunctions of factors** with `AND` between them are one. -/
theorem IsTerm.append {depth : Nat} {ts us : List Token} {es fs : List Logic} (h : IsTerm depth ts es)
    (h' : IsTerm depth us fs) : IsTerm depth (ts ++ .word "AND" :: us) (es ++ fs) := by
  obtain ⟨hundivided, parts, hparts, hes⟩ := h
  obtain ⟨hundivided', parts', hparts', hfs⟩ := h'
  constructor
  · -- `OR` does not divide the text at the `AND`
    have hand : cut .or .outside (.word "AND" :: us) = some [.word "AND" :: us] := by
      rw [cut_cons .or .outside .outside _ us (by decide) (by decide), hundivided']
      rfl
    rw [cut_append .or .outside ts _ [ts] hundivided, hand]
    rfl
  · -- the parts before the `AND` are those of the first text, the parts behind it those of the second
    have hand : cut .and .outside (.word "AND" :: us) = some ([] :: parts') := by
      rw [cut, if_pos (by decide), hparts']
      rfl
    refine ⟨parts ++ parts', ?_, ?_⟩
    · rw [cut_append .and .outside ts _ parts hparts, hand, Option.map_some,
        joinParts_nil_cons parts parts' (cut_ne_nil _ _ _ _ hparts)]
    · rw [List.mapM_append, hes, hfs]
      rfl

/-- Conjunctions of factors with `AND` between them are one, whose value is that of all of them. -/
theorem exists_isTerm_joined {α : Type} (depth : Nat) (tokens : α → List Token)
    (v : (List Token → Truth) → α → Truth) (xs : List α) (hne : xs ≠ [])
    (h : ∀ x ∈ xs, ∃ es, IsTerm depth (tokens x) es ∧ ∀ σ, .all (es.map (value σ)) = v σ x) :
    ∃ es, IsTerm depth (joined (.word "AND") (xs.map tokens)) es
      ∧ ∀ σ, .all (es.map (value σ)) = Truth.all (xs.map (v σ)) := by
  induction xs with
  | nil => exact absurd rfl hne
  | cons x xs ih =>
      obtain ⟨⟨es, hterm, hvalue⟩, hxs⟩ := List.forall_mem_cons.mp h
      cases xs with
      | nil =>
          refine ⟨es, by simpa [joined] using hterm, fun σ => ?_⟩
          simpa [Truth.all] using hvalue σ
      | cons y ys =>
          obtain ⟨fs, hterms, hvalues⟩ := ih (by simp) hxs
          refine ⟨es ++ fs, by simpa [joined] using hterm.append hterms, fun σ => ?_⟩
          rw [List.map_append, Truth.all_append, hvalue, hvalues, List.map_cons (l := y :: ys),
            Truth.all_cons]

/-! ## Texts with `AND` between them -/

/-- A text that is put together from others is not shorter than any of them. -/
theorem length_le_joined_of_mem (pieces : List (List Token)) :
    ∀ ts ∈ pieces, ts.length ≤ (joined (.word "AND") pieces).length := by
  induction pieces with
  | nil => simp
  | cons us pieces ih =>
      cases pieces with
      | nil => simp [joined]
      | cons vs pieces =>
          have hsplit : joined (.word "AND") (us :: vs :: pieces)
              = us ++ .word "AND" :: joined (.word "AND") (vs :: pieces) := by simp [joined]
          rw [hsplit, List.length_append, List.length_cons]
          refine List.forall_mem_cons.mpr ⟨Nat.le_add_right _ _, fun ts hts => ?_⟩
          exact (ih ts hts).trans (by omega)

/-- The tokens of texts with `AND` between them, if no text but the last one ends in a comment. -/
theorem ofText?_intercalate (texts : List String) (tokens : String → List Token) (hne : texts ≠ [])
    (hread : ∀ s ∈ texts, Token.ofText? s = some (tokens s))
    (hclosed : ∀ s ∈ texts.dropLast, Token.Closed s) :
    Token.ofText? (" AND ".intercalate texts) = some (joined (.word "AND") (texts.map tokens)) := by
  induction texts with
  | nil => exact absurd rfl hne
  | cons s texts ih =>
      obtain ⟨hs, htexts⟩ := List.forall_mem_cons.mp hread
      cases texts with
      | nil => simpa [joined] using hs
      | cons s' texts =>
          have hfirst := Token.scans_of_closed s (tokens s) hs (hclosed s (by simp))
          have hand : Token.Free " AND " [.word "AND"] := Token.free_keyword "AND" " AND " rfl rfl
          have hrest := ih (by simp) htexts fun u hu => hclosed u (by simp [hu])
          rw [Token.ofText?] at hrest
          rw [String.intercalate_cons_cons, Token.ofText?, String.toList_append,
            hfirst.append_free hand rfl, hrest]
          simp [joined]

/-- **Texts with `AND` between them** are read as their conjunction, if `OR` divides none of several and
none but the last one ends in a comment. -/
theorem exists_reading_intercalate (texts : List String) (hne : texts ≠ [])
    (hread : ∀ s ∈ texts, (Logic.ofText? s).isSome) (hclosed : ∀ s ∈ texts.dropLast, Token.Closed s)
    (hundivided : 2 ≤ texts.length → ∀ s ∈ texts, Undivided s) :
    ∃ e, Logic.ofText? (" AND ".intercalate texts) = some e
      ∧ ∀ σ, e.value σ = .all (texts.map (valueOf σ)) := by
  by_cases hlen : 2 ≤ texts.length
  · let tokens := fun s => (Token.ofText? s).getD []
    have hscan : ∀ s ∈ texts, Token.ofText? s = some (tokens s) := by
      intro s hs
      have hsome := hread s hs
      cases h : Token.ofText? s with
      | none => rw [Logic.ofText?, h] at hsome; cases hsome
      | some ts => simp [tokens, h]
    have htokens := ofText?_intercalate texts tokens hne hscan hclosed
    have hterms : ∀ s ∈ texts, ∃ es,
        IsTerm (joined (.word "AND") (texts.map tokens)).length (tokens s) es
          ∧ ∀ σ, .all (es.map (value σ)) = valueOf σ s := by
      intro s hs
      obtain ⟨e, he⟩ := Option.isSome_iff_exists.mp (hread s hs)
      have hwhole := hundivided hlen s hs
      have hreading := he
      rw [Undivided, hscan s hs] at hwhole
      rw [Logic.ofText?, hscan s hs, Option.bind_some] at hreading
      obtain ⟨es, hterm, rfl⟩ := exists_isTerm (tokens s) e hreading (by simpa using hwhole)
      refine ⟨es, hterm.of_length_le (length_le_joined_of_mem _ _ (List.mem_map_of_mem hs)), fun σ => ?_⟩
      rw [valueOf, he]
      exact (value_term σ es).symm
    obtain ⟨es, hterm, hvalue⟩ := exists_isTerm_joined _ tokens valueOf texts hne hterms
    refine ⟨.either [.both es], ?_, fun σ => (value_term σ es).trans (hvalue σ)⟩
    rw [Logic.ofText?, htokens, Option.bind_some, ofTokens?]
    exact hterm.read_eq
  · -- a text that stands alone is read as it is
    have hpos := List.length_pos_of_ne_nil hne
    obtain ⟨s, rfl⟩ := List.length_eq_one_iff.mp (show texts.length = 1 by omega)
    obtain ⟨e, he⟩ := Option.isSome_iff_exists.mp (hread s (by simp))
    refine ⟨e, by simpa using he, fun σ => ?_⟩
    simp [valueOf, he, Truth.all]

end Logic

/-! ## Predicates -/

/-- A predicate in which no empty conjunction stands. -/
inductive Predicate.Solid : Predicate → Prop
  | atom (c : Condition) : Solid (.atom c)
  | all (members : List Predicate) (hne : members ≠ []) (h : ∀ p ∈ members, Solid p) :
      Solid (.all members)

/-- The value of a condition is that of its text. -/
def Condition.value (q : Quoting) (σ : List Token → Truth) (c : Condition) : Truth :=
  valueOf σ (c.print q)

mutual

/-- The value of a predicate, given those of the atoms in it. -/
def Predicate.value (q : Quoting) (σ : List Token → Truth) : Predicate → Truth
  | .atom c => c.value q σ
  | .all members => .all (Predicate.values q σ members)

/-- The values of a list of predicates, given those of the atoms in it. -/
def Predicate.values (q : Quoting) (σ : List Token → Truth) : List Predicate → List Truth
  | [] => []
  | p :: ps => p.value q σ :: Predicate.values q σ ps

end

mutual

/-- The value of a predicate is the conjunction of those of its conditions. -/
theorem Predicate.value_eq (q : Quoting) (σ : List Token → Truth) (p : Predicate) :
    p.value q σ = .all (p.atoms.map (Condition.value q σ)) := by
  cases p with
  | atom c => simp [Predicate.value, Predicate.atoms, Truth.all]
  | all members => rw [Predicate.value, Predicate.atoms, Predicate.all_values_eq]

/-- The values of a list of predicates hold if those of its conditions do. -/
theorem Predicate.all_values_eq (q : Quoting) (σ : List Token → Truth) (ps : List Predicate) :
    .all (Predicate.values q σ ps) = Truth.all ((Predicate.atomsAll ps).map (Condition.value q σ)) := by
  cases ps with
  | nil => rfl
  | cons p ps =>
      rw [Predicate.values, Truth.all_cons, Predicate.value_eq q σ p, Predicate.all_values_eq q σ ps,
        Predicate.atomsAll, List.map_append, Truth.all_append]

end

/-- The values of a list of predicates are those of its members. -/
theorem Predicate.values_eq_map (q : Quoting) (σ : List Token → Truth) (ps : List Predicate) :
    Predicate.values q σ ps = ps.map (Predicate.value q σ) := by
  induction ps with
  | nil => rfl
  | cons p ps ih => rw [Predicate.values, ih, List.map_cons]

/-! ## Printed predicates -/

/-- A solid predicate has a condition. -/
theorem Predicate.Solid.atoms_ne_nil {p : Predicate} (h : p.Solid) : p.atoms ≠ [] := by
  induction h with
  | atom c => simp [Predicate.atoms]
  | all members hne h ih =>
      obtain ⟨p, ps, rfl⟩ := List.exists_cons_of_ne_nil hne
      rw [Predicate.atoms, Predicate.atomsAll]
      exact List.append_ne_nil_of_left_ne_nil (ih p List.mem_cons_self) _

/-- Texts are separated as the groups are that they are put together to. -/
theorem intercalate_flatMap {α : Type} (separator : String) (f : α → List String) (xs : List α)
    (h : ∀ x ∈ xs, f x ≠ []) :
    separator.intercalate (xs.map fun x => separator.intercalate (f x))
      = separator.intercalate (xs.flatMap f) := by
  induction xs with
  | nil => rfl
  | cons x xs ih =>
      obtain ⟨hx, hxs⟩ := List.forall_mem_cons.mp h
      cases xs with
      | nil => simp
      | cons y ys =>
          have hmore : (y :: ys).flatMap f ≠ [] := by
            rw [List.flatMap_cons]
            exact List.append_ne_nil_of_left_ne_nil (List.forall_mem_cons.mp hxs).1 _
          have happend := Text.intercalate_append separator.toList ((f x).map String.toList)
            (((y :: ys).flatMap f).map String.toList) (by simpa using hx) (by simpa using hmore)
          have hrest := ih hxs
          have hjoin : (x :: y :: ys).flatMap f = f x ++ (y :: ys).flatMap f := List.flatMap_cons
          rw [List.map_cons] at hrest
          rw [List.map_cons, List.map_cons, String.intercalate_cons_cons, hrest, hjoin, ← String.toList_inj]
          simp only [String.toList_append, String.toList_intercalate, List.map_append]
          exact happend.symm

/-- A solid predicate is printed as its conditions with `AND` between them. -/
theorem Predicate.Solid.print_eq {p : Predicate} (h : p.Solid) (q : Quoting) :
    p.print q = " AND ".intercalate (p.atoms.map (Condition.print q)) := by
  induction h with
  | atom c => simp [Predicate.print, Predicate.atoms]
  | all members hne h ih =>
      rw [Predicate.print, Predicate.printAll_eq_map, Predicate.atoms, Predicate.atomsAll_eq_flatMap,
        List.map_flatMap, ← intercalate_flatMap " AND " _ members fun p hp => by
          simpa using (h p hp).atoms_ne_nil]
      exact congrArg _ (List.map_congr_left ih)

/-- Solid predicates with the same conditions are printed alike, however they are nested. -/
theorem Predicate.Solid.print_congr {p p' : Predicate} (h : p.Solid) (h' : p'.Solid) (hatoms : p.atoms = p'.atoms)
    (q : Quoting) : p.print q = p'.print q := by
  rw [h.print_eq q, h'.print_eq q, hatoms]

/-- A conjunction of solid predicates is solid. -/
theorem Predicate.Solid.conjoin {ps : List Predicate} {p : Predicate} (hp : Predicate.conjoin ps = some p)
    (h : ∀ r ∈ ps, r.Solid) : p.Solid := by
  match ps with
  | [] => cases hp
  | [r] =>
      obtain rfl := Option.some.inj hp
      exact h _ List.mem_cons_self
  | r :: r' :: rs =>
      obtain rfl := Option.some.inj hp
      exact .all _ (List.cons_ne_nil _ _) h

/-- **Conjunctions are flat.** There is a conjunction of any predicates but of none at all, and its conditions
are those of its members in order, of which none is a conjunction. A predicate in which no empty conjunction
stands is printed as its conditions with `AND` between them, and so is the conjunction of such predicates; so
those with the same conditions are printed alike, and the flat conjunction of the conditions of such a predicate
is printed as the predicate. -/
theorem Predicate.conjoin_flattens (q : Quoting) (ps : List Predicate) (p p' : Predicate) :
    (conjoin ps = none ↔ ps = [])
      ∧ (∀ r, conjoin ps = some r → r.atoms = ps.flatMap atoms
          ∧ ∀ c ∈ r.atoms, ∀ members, Predicate.atom c ≠ .all members)
      ∧ (∀ r, conjoin ps = some r → (∀ member ∈ ps, member.Solid) →
          r.print q = " AND ".intercalate ((ps.flatMap atoms).map (Condition.print q)))
      ∧ (p.Solid → p.print q = " AND ".intercalate (p.atoms.map (Condition.print q)))
      ∧ (p.Solid → p'.Solid → p.atoms = p'.atoms → p.print q = p'.print q)
      ∧ (p.Solid → ∃ flat, conjoin (p.atoms.map .atom) = some flat ∧ flat.atoms = p.atoms
          ∧ flat.print q = p.print q) := by
  refine ⟨conjoin_eq_none_iff ps, fun r hr => ⟨atoms_conjoin ps r hr, fun _ _ _ => nofun⟩, fun r hr hsolid => ?_,
    fun h => h.print_eq q, fun h h' hatoms => h.print_congr h' hatoms q, fun h => ?_⟩
  · rw [(Solid.conjoin hr hsolid).print_eq q, atoms_conjoin ps r hr]
  · have hne : p.atoms.map Predicate.atom ≠ [] := by simpa using h.atoms_ne_nil
    obtain ⟨flat, hflat⟩ := Option.ne_none_iff_exists'.mp (mt (conjoin_eq_none_iff _).mp hne)
    have hatoms : flat.atoms = p.atoms := atoms_conjoin_map p.atoms flat hflat
    have hsolid : flat.Solid := .conjoin hflat (List.forall_mem_map.mpr fun c _ => .atom c)
    exact ⟨flat, hflat, hatoms, hsolid.print_congr h hatoms q⟩

/-- The same three conditions, nested to the left and to the right. -/
theorem Predicate.conjoin_flattens_nested :
    let a : Condition := .fragment "a OR b"
    let b : Condition := .contains (.of "orders" "note") "AND"
    let c : Condition := .compare (.of "orders" "id") .greater (.number "7")
    let left : Predicate := .all [.all [.atom a, .all [.atom b]], .atom c]
    let right : Predicate := .all [.atom a, .all [.atom b, .atom c]]
    left.Solid ∧ right.Solid ∧ left.atoms = right.atoms ∧ left.print .quoted = right.print .quoted
      ∧ right.print .bare = " AND ".intercalate ["a OR b", "orders.note ILIKE '%AND%'", "orders.id > 7"]
      ∧ ∃ r, conjoin [left, right] = some r ∧ r.atoms = [a, b, c, a, b, c] := by
  intro a b c left right
  have hleft : left.Solid := by
    have hb : (Predicate.all [.atom b]).Solid := .all _ (by simp) (by simp [Solid.atom])
    have hab : (Predicate.all [.atom a, .all [.atom b]]).Solid := .all _ (by simp) (by simp [Solid.atom, hb])
    exact .all _ (by simp) (by simp [Solid.atom, hab])
  have hright : right.Solid := by
    have hbc : (Predicate.all [.atom b, .atom c]).Solid := .all _ (by simp) (by simp [Solid.atom])
    exact .all _ (by simp) (by simp [Solid.atom, hbc])
  have hatoms : left.atoms = right.atoms := rfl
  obtain ⟨-, -, -, -, halike, -⟩ := conjoin_flattens .quoted [] left right
  obtain ⟨-, hconjoin, -, hprint, -, -⟩ := conjoin_flattens .bare [left, right] right left
  refine ⟨hleft, hright, hatoms, halike hleft hright hatoms, (hprint hright).trans rfl, _, rfl, ?_⟩
  exact (hconjoin _ rfl).1.trans rfl

/-! ## Conditions of a conjunction -/

/-- A condition of the printer's own form: its names are quoted and no fragment occurs in it. -/
def Condition.IsOwn (q : Quoting) (c : Condition) : Prop := q = .quoted ∧ c.Readable

/-- Conditions whose texts can stand with `AND` between them: a text that is not of the printer's own form
is a condition, it does not end in a comment unless it is the last one, and `OR` does not divide it unless it
stands alone. -/
structure Composable (q : Quoting) (cs : List Condition) : Prop where
  reading : ∀ c ∈ cs, ¬ c.IsOwn q → (Logic.ofText? (c.print q)).isSome
  closed : ∀ c ∈ cs.dropLast, ¬ c.IsOwn q → Token.Closed (c.print q)
  undivided : 2 ≤ cs.length → ∀ c ∈ cs, ¬ c.IsOwn q → Undivided (c.print q)

/-- A condition of the printer's own form is scanned into its tokens. -/
theorem Condition.IsOwn.ofText? {q : Quoting} {c : Condition} (h : c.IsOwn q) :
    Token.ofText? (c.print q) = some c.tokens := by
  obtain ⟨rfl, hc⟩ := h
  exact (scans_condition c hc).ofText?_eq

/-- A condition of the printer's own form is read as the atom of its tokens. -/
theorem Condition.IsOwn.reading {q : Quoting} {c : Condition} (h : c.IsOwn q) :
    Logic.ofText? (c.print q) = some (.either [.both [.atom c.tokens]]) := by
  rw [Logic.ofText?, h.ofText?, Option.bind_some, c.ofTokens?_tokens h.2]

/-- A condition of the printer's own form does not end in a comment. -/
theorem Condition.IsOwn.closed {q : Quoting} {c : Condition} (h : c.IsOwn q) : Token.Closed (c.print q) := by
  obtain ⟨rfl, hc⟩ := h
  exact (scans_condition c hc).closed

/-- No connective divides a condition of the printer's own form. -/
theorem Condition.IsOwn.undivided {q : Quoting} {c : Condition} (h : c.IsOwn q) :
    Undivided (c.print q) := by
  rw [Undivided, h.ofText?]
  simpa using (passes_condition c h.2).cut_eq .or

/-- **A printed conjunction** can be read, and under every assignment of truth values to the atoms its text
has the value of the conjunction of its predicates. -/
theorem exists_reading_conjoin (q : Quoting) (ps : List Predicate) (hps : ps ≠ [])
    (hsolid : ∀ p ∈ ps, p.Solid) (h : Composable q (ps.flatMap Predicate.atoms)) :
    ∃ p e, Predicate.conjoin ps = some p ∧ Logic.ofText? (p.print q) = some e
      ∧ ∀ σ, e.value σ = .all (ps.map (Predicate.value q σ)) := by
  obtain ⟨p, hp⟩ : ∃ p, Predicate.conjoin ps = some p :=
    Option.ne_none_iff_exists'.mp (mt (Predicate.conjoin_eq_none_iff ps).mp hps)
  have hall : (Predicate.all ps).Solid := .all ps hps hsolid
  have hatoms : (Predicate.all ps).atoms = ps.flatMap Predicate.atoms := by
    rw [Predicate.atoms, Predicate.atomsAll_eq_flatMap]
  have hprint : p.print q = " AND ".intercalate ((ps.flatMap Predicate.atoms).map (Condition.print q)) := by
    rw [Predicate.print_conjoin q ps p hp, ← Predicate.printAll_eq_map, ← Predicate.print, hall.print_eq q,
      hatoms]
  -- what is asked of fragments holds of the other conditions as well
  have hreading : ∀ c ∈ ps.flatMap Predicate.atoms, (Logic.ofText? (c.print q)).isSome := by
    intro c hc
    by_cases hown : c.IsOwn q
    · rw [hown.reading]; rfl
    · exact h.reading c hc hown
  have hclosed : ∀ c ∈ (ps.flatMap Predicate.atoms).dropLast, Token.Closed (c.print q) := by
    intro c hc
    by_cases hown : c.IsOwn q
    · exact hown.closed
    · exact h.closed c hc hown
  have hundivided : 2 ≤ (ps.flatMap Predicate.atoms).length →
      ∀ c ∈ ps.flatMap Predicate.atoms, Undivided (c.print q) := by
    intro hlen c hc
    by_cases hown : c.IsOwn q
    · exact hown.undivided
    · exact h.undivided hlen c hc hown
  obtain ⟨e, he, hvalue⟩ := exists_reading_intercalate
    ((ps.flatMap Predicate.atoms).map (Condition.print q))
    (by rw [← hatoms]; simpa using hall.atoms_ne_nil)
    (List.forall_mem_map.mpr hreading)
    (by rw [← List.map_dropLast]; exact List.forall_mem_map.mpr hclosed)
    (by rw [List.length_map]; exact fun hlen => List.forall_mem_map.mpr (hundivided hlen))
  refine ⟨p, e, hp, by rw [hprint, he], fun σ => ?_⟩
  rw [hvalue σ, ← Predicate.values_eq_map, Predicate.all_values_eq, Predicate.atomsAll_eq_flatMap,
    List.map_map]
  rfl

/-- Open or new orders of a quarter: a fragment with connectives, a range, and a conjunction that ends in a
comment. -/
def quarterConditions : List Predicate :=
  [.atom (.fragment "(status = 'open' OR status = 'new') AND NOT archived"),
   .atom (.between (.of "orders" "created_at") "2024-01-01" "2024-03-31"),
   .all [.atom (.contains (.of "orders" "note") "OR"), .atom (.fragment "total between 5 and 10 -- net")]]

/-- The conditions of a quarter mean their conjunction. -/
theorem exists_reading_conjoin_quarter :
    quarterConditions ≠ [] ∧ (∀ p ∈ quarterConditions, p.Solid)
      ∧ Composable .quoted (quarterConditions.flatMap Predicate.atoms)
      ∧ ∃ p e, Predicate.conjoin quarterConditions = some p ∧ Logic.ofText? (p.print .quoted) = some e
        ∧ ∀ σ, e.value σ = .all (quarterConditions.map (Predicate.value .quoted σ)) := by
  have hne : quarterConditions ≠ [] := by simp [quarterConditions]
  have hsolid : ∀ p ∈ quarterConditions, p.Solid := by
    have hinner : ∀ c c' : Condition, (Predicate.all [.atom c, .atom c']).Solid := fun c c' =>
      .all _ (by simp) (by simp [Predicate.Solid.atom])
    simp [quarterConditions, Predicate.Solid.atom, hinner]
  have hreading : ∀ c ∈ quarterConditions.flatMap Predicate.atoms,
      (Logic.ofText? (c.print .quoted)).isSome := by decide +kernel
  have hclosed : ∀ c ∈ (quarterConditions.flatMap Predicate.atoms).dropLast,
      Token.Closed (c.print .quoted) := by decide +kernel
  have hundivided : ∀ c ∈ quarterConditions.flatMap Predicate.atoms, Undivided (c.print .quoted) := by
    decide +kernel
  have h : Composable .quoted (quarterConditions.flatMap Predicate.atoms) :=
    ⟨fun c hc _ => hreading c hc, fun c hc _ => hclosed c hc, fun _ c hc _ => hundivided c hc⟩
  exact ⟨hne, hsolid, h, exists_reading_conjoin .quoted quarterConditions hne hsolid h⟩

/-- A conjunction of fragments whose text can be read, but does not have the value of the conjunction under
some assignment. -/
def IsMisread (fragments : List String) : Prop :=
  ∃ p σ, Predicate.conjoin (fragments.map fun sql => .atom (.fragment sql)) = some p
    ∧ (Logic.ofText? (p.print .quoted)).isSome
    ∧ valueOf σ (p.print .quoted) ≠ .all (fragments.map (valueOf σ))

/-- **What changes the meaning of a conjunction**: an alternative that stands beside another condition, a
fragment with a comment before the end, and an empty conjunction inside, of which nothing can be read. -/
theorem not_conjunction_of_alternative :
    (∀ sql ∈ ["a OR b", "a -- note", "c"], (Logic.ofText? sql).isSome)
      ∧ IsMisread ["a OR b", "c"] ∧ IsMisread ["a -- note", "c"]
      ∧ ∀ p, Predicate.conjoin [.all [], .atom (.fragment "c")] = some p →
          Logic.ofText? (p.print .quoted) = none := by
  refine ⟨by decide +kernel, ?_, ?_, ?_⟩
  -- only `a` holds, which is enough for `a OR b AND c`
  · exact ⟨_, fun ts => if ts = [.word "a"] then .yes else .no, rfl, by decide +kernel, by decide +kernel⟩
  · exact ⟨_, fun ts => if ts = [.word "a"] then .yes else .no, rfl, by decide +kernel, by decide +kernel⟩
  · intro p hp
    obtain rfl := Option.some.inj hp
    have hnone : (Logic.ofText? (Predicate.print .quoted (.all [.all [], .atom (.fragment "c")]))).isNone := by
      decide +kernel
    exact Option.isNone_iff_eq_none.mp hnone

end TextToSql.Sql
