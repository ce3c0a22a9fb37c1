import TextToSql.Proofs.Schema.Relationships

/-!
# Routes between tables

Two tables are related if some relationship is declared between them, in either direction. The chain between
two tables is their route: one hop if they are related, else two hops over the first declared table that is
related to both, else nothing. Which way round the two are given decides the conditions of the hops, but not
the tables that the route passes.

* `hopCondition_iff` : the condition of a hop is that of the relationship that counts for its tables;
* `route_chain`, `Route.chain_eq` : the chain between two tables is their only route;
* `Route.exists_reverse` : the route back passes the same tables;
* `chain_route` : all of this for the chain.
-/

namespace TextToSql

open Sql

/-- The first element of a list with a property. -/
def IsFirst {α : Type} (p : α → Prop) (xs : List α) (x : α) : Prop :=
  ∃ before after, xs = before ++ x :: after ∧ p x ∧ ∀ y ∈ before, ¬ p y

/-- The tables that hops pass, one after the other. -/
def Relationship.stops : List Relationship → List String
  | [] => []
  | r :: rs => r.left :: (r :: rs).map Relationship.right

namespace Schema

/-- Two tables are related: some relationship connects them. -/
def Related (schema : Schema) (a b : String) : Prop := ∃ r ∈ schema.relationships, r.Connects a b

/-- A third table that is related to both of two tables. -/
def Mediates (schema : Schema) (a b middle : String) : Prop :=
  middle ≠ a ∧ middle ≠ b ∧ schema.Related a middle ∧ schema.Related middle b

/-- The condition of a hop: that of the first relationship declared from the one table to the other, or if
there is none, of the first one declared the other way round. -/
inductive HopCondition (schema : Schema) (a b : String) : List (ColumnRef × ColumnRef) → Prop
  | forward (r : Relationship)
      (hfirst : IsFirst (fun r => r.left = a ∧ r.right = b) schema.relationships r) :
      HopCondition schema a b r.on
  | backward (r : Relationship) (hnone : ∀ r ∈ schema.relationships, ¬ (r.left = a ∧ r.right = b))
      (hfirst : IsFirst (fun r => r.left = b ∧ r.right = a) schema.relationships r) :
      HopCondition schema a b r.on

/-- The route between two tables: one hop if they are related, else two hops over the first declared table
that is related to both, else nothing. -/
inductive Route (schema : Schema) (a b : String) : List Relationship → Prop
  | direct (on : List (ColumnRef × ColumnRef)) (hon : schema.HopCondition a b on) :
      Route schema a b [⟨a, b, on⟩]
  | detour (middle : String) (on on' : List (ColumnRef × ColumnRef)) (hunrelated : ¬ schema.Related a b)
      (hfirst : IsFirst (schema.Mediates a b) schema.tableNames middle)
      (hon : schema.HopCondition a middle on) (hon' : schema.HopCondition middle b on') :
      Route schema a b [⟨a, middle, on⟩, ⟨middle, b, on'⟩]
  | apart (hunrelated : ¬ schema.Related a b)
      (hnone : ∀ middle ∈ schema.tableNames, ¬ schema.Mediates a b middle) : Route schema a b []

/-! ## Related tables -/

variable (schema : Schema) {a b : String}

/-- Tables are related either way round. -/
theorem related_comm : schema.Related a b ↔ schema.Related b a := by
  have hswap : ∀ r : Relationship, r.Connects a b ↔ r.Connects b a := fun r => or_comm
  simp only [Related, hswap]

/-- A table between two others is between them either way round. -/
theorem mediates_comm (middle : String) : schema.Mediates a b middle ↔ schema.Mediates b a middle := by
  unfold Mediates
  rw [schema.related_comm (a := a), schema.related_comm (b := b)]
  constructor
  · rintro ⟨ha, hb, hma, hmb⟩
    exact ⟨hb, ha, hmb, hma⟩
  · rintro ⟨hb, ha, hmb, hma⟩
    exact ⟨ha, hb, hma, hmb⟩

/-! ## The relationship that counts -/

/-- The search for an element finds the first one. -/
theorem find?_eq_some_iff_isFirst {α : Type} (p : α → Bool) (xs : List α) (x : α) :
    xs.find? p = some x ↔ IsFirst (fun y => p y = true) xs x := by
  rw [List.find?_eq_some_iff_append]
  constructor
  · rintro ⟨hx, before, after, hxs, hbefore⟩
    exact ⟨before, after, hxs, hx, fun y hy => by simpa using hbefore y hy⟩
  · rintro ⟨before, after, hxs, hx, hbefore⟩
    exact ⟨hx, before, after, hxs, fun y hy => by simpa using hbefore y hy⟩

/-- No relationship counts for two tables exactly when they are not related. -/
theorem relationship?_eq_none_iff : schema.relationship? a b = none ↔ ¬ schema.Related a b := by
  unfold relationship? Related Relationship.Connects
  simp only [Option.or_eq_none_iff, List.find?_eq_none, Bool.and_eq_true, decide_eq_true_eq, not_exists,
    not_and, not_or]
  constructor
  · rintro ⟨hforward, hbackward⟩ r hr
    exact ⟨hforward r hr, hbackward r hr⟩
  · intro h
    exact ⟨fun r hr => (h r hr).1, fun r hr => (h r hr).2⟩

/-- The condition of a hop is that of the relationship that counts for its tables. -/
theorem hopCondition_iff (on : List (ColumnRef × ColumnRef)) :
    schema.HopCondition a b on ↔ ∃ r, schema.relationship? a b = some r ∧ r.on = on := by
  have hfirst : ∀ (a b : String) (r : Relationship),
      schema.relationships.find? (fun r => r.left = a && r.right = b) = some r
        ↔ IsFirst (fun r => r.left = a ∧ r.right = b) schema.relationships r := by
    intro a b r
    rw [find?_eq_some_iff_isFirst]
    simp only [Bool.and_eq_true, decide_eq_true_eq]
  have hnone : schema.relationships.find? (fun r => r.left = a && r.right = b) = none
      ↔ ∀ r ∈ schema.relationships, ¬ (r.left = a ∧ r.right = b) := by
    simp [List.find?_eq_none]
  unfold relationship?
  constructor
  · intro h
    cases h with
    | forward r hr => exact ⟨r, Option.or_eq_some_iff.mpr (Or.inl ((hfirst a b r).mpr hr)), rfl⟩
    | backward r hforward hr =>
        exact ⟨r, Option.or_eq_some_iff.mpr (Or.inr ⟨hnone.mpr hforward, (hfirst b a r).mpr hr⟩), rfl⟩
  · rintro ⟨r, hr, rfl⟩
    rcases Option.or_eq_some_iff.mp hr with hr | ⟨hforward, hr⟩
    · exact .forward r ((hfirst a b r).mp hr)
    · exact .backward r (hnone.mp hforward) ((hfirst b a r).mp hr)

/-- Two tables are related exactly when there is a condition for the hop between them. -/
theorem related_iff_exists_hopCondition :
    schema.Related a b ↔ ∃ on, schema.HopCondition a b on := by
  constructor
  · intro hrelated
    cases hr : schema.relationship? a b with
    | none => exact absurd hrelated (schema.relationship?_eq_none_iff.mp hr)
    | some r => exact ⟨r.on, (schema.hopCondition_iff r.on).mpr ⟨r, hr, rfl⟩⟩
  · rintro ⟨on, hon⟩
    obtain ⟨r, hr, -⟩ := (schema.hopCondition_iff on).mp hon
    obtain ⟨hmem, hconnects⟩ := schema.relationship?_connects a b r hr
    exact ⟨r, hmem, hconnects⟩

/-! ## The chain -/

/-- A detour over a table is made of the hops to it and from it. -/
theorem detour?_eq_some_iff (middle : String) (path : List Relationship) :
    schema.detour? a b middle = some path ↔ middle ≠ a ∧ middle ≠ b
      ∧ ∃ on, schema.HopCondition a middle on
        ∧ ∃ on', schema.HopCondition middle b on' ∧ path = [⟨a, middle, on⟩, ⟨middle, b, on'⟩] := by
  simp only [hopCondition_iff]
  unfold detour?
  constructor
  · intro h
    split at h
    · cases h
    · next hends =>
        simp only [Bool.or_eq_true, decide_eq_true_eq, not_or] at hends
        split at h
        · next r r' hr hr' =>
            cases h
            exact ⟨hends.1, hends.2, r.on, ⟨r, hr, rfl⟩, r'.on, ⟨r', hr', rfl⟩, rfl⟩
        · cases h
  · rintro ⟨ha, hb, _, ⟨r, hr, rfl⟩, _, ⟨r', hr', rfl⟩, rfl⟩
    simp [ha, hb, hr, hr']

/-- There is no detour over a table exactly when it does not mediate. -/
theorem detour?_eq_none_iff (middle : String) :
    schema.detour? a b middle = none ↔ ¬ schema.Mediates a b middle := by
  rw [Option.eq_none_iff_forall_ne_some]
  simp only [ne_eq, detour?_eq_some_iff, Mediates, related_iff_exists_hopCondition]
  constructor
  · rintro h ⟨ha, hb, ⟨on, hon⟩, on', hon'⟩
    exact h _ ⟨ha, hb, on, hon, on', hon', rfl⟩
  · rintro h path ⟨ha, hb, on, hon, on', hon', -⟩
    exact h ⟨ha, hb, ⟨on, hon⟩, on', hon'⟩

/-- The search for a detour finds the one over the first declared table that mediates. -/
theorem findSome?_detour?_eq_some_iff (path : List Relationship) :
    schema.tableNames.findSome? (schema.detour? a b) = some path
      ↔ ∃ middle, IsFirst (schema.Mediates a b) schema.tableNames middle
        ∧ ∃ on, schema.HopCondition a middle on
          ∧ ∃ on', schema.HopCondition middle b on' ∧ path = [⟨a, middle, on⟩, ⟨middle, b, on'⟩] := by
  simp only [List.findSome?_eq_some_iff, detour?_eq_some_iff, detour?_eq_none_iff]
  constructor
  · rintro ⟨before, middle, after, htables, ⟨ha, hb, on, hon, on', hon', rfl⟩, hbefore⟩
    have hmediates : schema.Mediates a b middle :=
      ⟨ha, hb, schema.related_iff_exists_hopCondition.mpr ⟨on, hon⟩,
        schema.related_iff_exists_hopCondition.mpr ⟨on', hon'⟩⟩
    exact ⟨middle, ⟨before, after, htables, hmediates, hbefore⟩, on, hon, on', hon', rfl⟩
  · rintro ⟨middle, ⟨before, after, htables, ⟨ha, hb, -, -⟩, hbefore⟩, on, hon, on', hon', rfl⟩
    exact ⟨before, middle, after, htables, ⟨ha, hb, on, hon, on', hon', rfl⟩, hbefore⟩

/-- The chain between two tables is a route. -/
theorem route_chain (a b : String) : schema.Route a b (schema.chain a b) := by
  unfold chain
  cases hr : schema.relationship? a b with
  | some r => exact .direct r.on ((schema.hopCondition_iff r.on).mpr ⟨r, hr, rfl⟩)
  | none =>
      have hunrelated := schema.relationship?_eq_none_iff.mp hr
      cases hsearch : schema.tableNames.findSome? (schema.detour? a b) with
      | some path =>
          obtain ⟨middle, hfirst, on, hon, on', hon', rfl⟩ :=
            (schema.findSome?_detour?_eq_some_iff path).mp hsearch
          exact .detour middle on on' hunrelated hfirst hon hon'
      | none =>
          refine .apart hunrelated fun middle hmiddle => ?_
          exact (schema.detour?_eq_none_iff middle).mp (List.findSome?_eq_none_iff.mp hsearch middle hmiddle)

/-- A route between two tables is the chain between them: there is no other one. -/
theorem Route.chain_eq {schema : Schema} {path : List Relationship} (h : schema.Route a b path) :
    schema.chain a b = path := by
  unfold chain
  cases h with
  | direct on hon =>
      obtain ⟨r, hr, rfl⟩ := (schema.hopCondition_iff on).mp hon
      rw [hr]
  | detour middle on on' hunrelated hfirst hon hon' =>
      rw [schema.relationship?_eq_none_iff.mpr hunrelated,
        (schema.findSome?_detour?_eq_some_iff _).mpr ⟨middle, hfirst, on, hon, on', hon', rfl⟩]
      rfl
  | apart hunrelated hnone =>
      have hsearch : schema.tableNames.findSome? (schema.detour? a b) = none :=
        List.findSome?_eq_none_iff.mpr fun middle hmiddle =>
          (schema.detour?_eq_none_iff middle).mpr (hnone middle hmiddle)
      rw [schema.relationship?_eq_none_iff.mpr hunrelated, hsearch]
      rfl

/-- **The route back passes the same tables** in the opposite order. -/
theorem Route.exists_reverse {schema : Schema} {path : List Relationship} (h : schema.Route a b path) :
    ∃ back, schema.Route b a back
      ∧ Relationship.stops back = (Relationship.stops path).reverse := by
  have hback : ∀ {a b on}, schema.HopCondition a b on → ∃ on, schema.HopCondition b a on := by
    intro a b on hon
    rw [← related_iff_exists_hopCondition, related_comm, related_iff_exists_hopCondition]
    exact ⟨on, hon⟩
  have hmediates : schema.Mediates b a = schema.Mediates a b :=
    funext fun middle => propext (schema.mediates_comm middle)
  cases h with
  | direct on hon =>
      obtain ⟨on', hon'⟩ := hback hon
      exact ⟨_, .direct on' hon', rfl⟩
  -- the first table that mediates is the same in both directions, and the hops are turned round
  | detour middle on on' hunrelated hfirst hon hon' =>
      obtain ⟨first, hfirstHop⟩ := hback hon'
      obtain ⟨second, hsecondHop⟩ := hback hon
      exact ⟨_, .detour middle first second (mt schema.related_comm.mpr hunrelated)
        (hmediates ▸ hfirst) hfirstHop hsecondHop, rfl⟩
  | apart hunrelated hnone =>
      exact ⟨_, .apart (mt schema.related_comm.mpr hunrelated) (hmediates ▸ hnone), rfl⟩

/-- **Chains.** The chain between two tables is their route: a single hop exactly when the two are related,
else two hops over the first declared table that is related to both, else nothing; each hop has the condition
of the first relationship declared for it, one in its own direction before one the other way round. The chain
back passes the same tables in the opposite order. -/
theorem chain_route (a b : String) :
    (∀ path, schema.chain a b = path ↔ schema.Route a b path)
      ∧ ((∃ on, schema.chain a b = [⟨a, b, on⟩]) ↔ schema.Related a b)
      ∧ Relationship.stops (schema.chain b a) = (Relationship.stops (schema.chain a b)).reverse := by
  have hroute := schema.route_chain a b
  refine ⟨fun path => ⟨?_, Route.chain_eq⟩, ⟨?_, ?_⟩, ?_⟩
  · rintro rfl
    exact hroute
  · rintro ⟨on, hchain⟩
    rw [hchain] at hroute
    cases hroute with
    | direct on hon => exact schema.related_iff_exists_hopCondition.mpr ⟨on, hon⟩
  · intro hrelated
    obtain ⟨on, hon⟩ := schema.related_iff_exists_hopCondition.mp hrelated
    exact ⟨on, (Route.direct on hon).chain_eq⟩
  · obtain ⟨back, hback, hstops⟩ := hroute.exists_reverse
    rw [hback.chain_eq, hstops]

end Schema

end TextToSql
