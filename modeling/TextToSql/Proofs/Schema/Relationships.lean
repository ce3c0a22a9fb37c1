import TextToSql.Schema.Declare

/-!
# Relationships

Which tables a relationship connects, and which relationships the chain between two tables is made of.

* `chain_cases` : a chain is empty, one relationship, or two over a third table;
* `comparesOwn_of_mem_chain` : a chain compares columns of its own tables if the schema does;
* `ofRequest_comparesOwn` : the schema of a request does if the request names no other tables.
-/

namespace TextToSql

open Sql

/-- A relationship connects two tables, in either direction. -/
def Relationship.Connects (r : Relationship) (a b : String) : Prop :=
  (r.left = a ∧ r.right = b) ∨ (r.left = b ∧ r.right = a)

/-- A table is one of the two sides of a relationship. -/
def Relationship.Touches (r : Relationship) (table : String) : Prop :=
  r.left = table ∨ r.right = table

/-- Relationships that lead from one table to another: each starts where the one before it ends. -/
inductive Relationship.Path : String → String → List Relationship → Prop
  | nil (a : String) : Path a a []
  | cons (r : Relationship) (rs : List Relationship) (b : String) (hrest : Path r.right b rs) :
      Path r.left b (r :: rs)

/-- A column that belongs to one of some tables. -/
def Sql.ColumnRef.BelongsTo (ref : ColumnRef) (tables : List String) : Prop :=
  ∃ table ∈ tables, ref.table = some table

/-- A relationship compares columns of its own two tables. -/
def Relationship.ComparesOwn (r : Relationship) : Prop :=
  ∀ pair ∈ r.on, pair.1.BelongsTo [r.left, r.right] ∧ pair.2.BelongsTo [r.left, r.right]

/-- A column that belongs to some tables belongs to more tables. -/
theorem Sql.ColumnRef.BelongsTo.mono {ref : ColumnRef} {tables tables' : List String}
    (h : ref.BelongsTo tables) (hsub : tables ⊆ tables') : ref.BelongsTo tables' := by
  obtain ⟨table, hmem, href⟩ := h
  exact ⟨table, hsub hmem, href⟩

/-- The sides of a relationship that connects two tables are these tables. -/
theorem Relationship.Connects.sides_subset {r : Relationship} {a b : String} (h : r.Connects a b) :
    [r.left, r.right] ⊆ [a, b] := by
  rcases h with ⟨rfl, rfl⟩ | ⟨rfl, rfl⟩ <;> simp

/-! ## Paths -/

namespace Relationship.Path

variable {a b c : String} {rs rs' : List Relationship}

/-- A path goes on along another one that starts where it ends. -/
theorem append (h : Path a b rs) (h' : Path b c rs') : Path a c (rs ++ rs') := by
  induction h with
  | nil a => exact h'
  | cons r rs b hrest ih => exact .cons r (rs ++ rs') c (ih h')

/-- A path without relationships stays where it is. -/
theorem eq_of_nil (h : Path a b []) : a = b := by
  cases h
  rfl

/-- Some relationship of a path ends where the path does. -/
theorem exists_right_eq (h : Path a b rs) (hne : rs ≠ []) : ∃ r ∈ rs, r.right = b := by
  induction h with
  | nil a => exact absurd rfl hne
  | cons r rs b hrest ih =>
      by_cases hnil : rs = []
      · subst hnil
        exact ⟨r, List.mem_cons_self, hrest.eq_of_nil⟩
      · obtain ⟨r', hr', hright⟩ := ih hnil
        exact ⟨r', List.mem_cons_of_mem r hr', hright⟩

end Relationship.Path

/-! ## Chains -/

namespace Schema

/-- A relationship that is found connects the two tables. -/
theorem relationship?_connects (schema : Schema) (a b : String) (r : Relationship)
    (h : schema.relationship? a b = some r) : r ∈ schema.relationships ∧ r.Connects a b := by
  unfold relationship? at h
  rcases Option.or_eq_some_iff.mp h with h | ⟨_, h⟩
  · have hr := List.find?_some h
    simp only [Bool.and_eq_true, decide_eq_true_eq] at hr
    exact ⟨List.mem_of_find?_eq_some h, Or.inl hr⟩
  · have hr := List.find?_some h
    simp only [Bool.and_eq_true, decide_eq_true_eq] at hr
    exact ⟨List.mem_of_find?_eq_some h, Or.inr hr⟩

/-- A chain between two tables is empty, one hop with the condition of the relationship between them, or
two hops over a third table. -/
theorem chain_cases (schema : Schema) (a b : String) :
    schema.chain a b = []
      ∨ (∃ r, schema.relationship? a b = some r ∧ schema.chain a b = [⟨a, b, r.on⟩])
      ∨ ∃ middle ∈ schema.tableNames, middle ≠ a ∧ middle ≠ b ∧
          ∃ r, schema.relationship? a middle = some r ∧
            ∃ r', schema.relationship? middle b = some r' ∧
              schema.chain a b = [⟨a, middle, r.on⟩, ⟨middle, b, r'.on⟩] := by
  unfold chain
  cases hdirect : schema.relationship? a b with
  | some r => exact Or.inr (Or.inl ⟨r, rfl, rfl⟩)
  | none =>
      -- the first table that both sides are related to stands between them
      cases hdetour : schema.tableNames.findSome? (schema.detour? a b) with
      | none => exact Or.inl rfl
      | some path =>
          obtain ⟨middle, hmiddle, hpath⟩ := List.exists_of_findSome?_eq_some hdetour
          unfold detour? at hpath
          split at hpath
          · cases hpath
          · next hne =>
              simp only [Bool.or_eq_true, decide_eq_true_eq, not_or] at hne
              split at hpath
              · next r r' hr hr' =>
                  cases hpath
                  exact Or.inr (Or.inr ⟨middle, hmiddle, hne.1, hne.2, r, hr, r', hr', rfl⟩)
              · cases hpath

/-- A chain that is not empty leads from the one table to the other. -/
theorem path_chain (schema : Schema) (a b : String) (h : schema.chain a b ≠ []) :
    Relationship.Path a b (schema.chain a b) := by
  rcases schema.chain_cases a b with hnil | ⟨r, _, hchain⟩ | ⟨middle, _, _, _, r, _, r', _, hchain⟩
  · exact absurd hnil h
  · rw [hchain]
    exact .cons ⟨a, b, r.on⟩ [] b (.nil b)
  · rw [hchain]
    exact .cons ⟨a, middle, r.on⟩ _ b (.cons ⟨middle, b, r'.on⟩ [] b (.nil b))

/-- The hops of a chain have the conditions of the relationships between their tables. -/
theorem relationship?_of_mem_chain (schema : Schema) (a b : String) :
    ∀ hop ∈ schema.chain a b,
      ∃ r, schema.relationship? hop.left hop.right = some r ∧ hop.on = r.on := by
  rcases schema.chain_cases a b with h | ⟨r, hr, h⟩ | ⟨middle, _, _, _, r, hr, r', hr', h⟩
  · simp [h]
  · rw [h, List.forall_mem_singleton]
    exact ⟨r, hr, rfl⟩
  · rw [h, List.forall_mem_cons, List.forall_mem_singleton]
    exact ⟨⟨r, hr, rfl⟩, r', hr', rfl⟩

/-- A chain between two different tables relates different tables. -/
theorem chain_ne (schema : Schema) (a b : String) (hab : a ≠ b) :
    ∀ r ∈ schema.chain a b, r.left ≠ r.right := by
  rcases schema.chain_cases a b with h | ⟨r, _, h⟩ | ⟨middle, _, ha, hb, r, _, r', _, h⟩
  · simp [h]
  · simpa [h] using hab
  · simpa [h] using ⟨Ne.symm ha, hb⟩

/-- The relationships of a chain have their conditions from the schema, and their sides are the two tables
or declared ones. -/
theorem on_and_sides_of_mem_chain (schema : Schema) (a b : String) (r : Relationship)
    (h : r ∈ schema.chain a b) :
    (∃ r' ∈ schema.relationships, r.on = r'.on)
      ∧ ∀ table, r.Touches table → table = a ∨ table = b ∨ table ∈ schema.tableNames := by
  constructor
  · obtain ⟨r', hr', hon⟩ := schema.relationship?_of_mem_chain a b r h
    exact ⟨r', (schema.relationship?_connects _ _ r' hr').1, hon⟩
  · rcases schema.chain_cases a b with hchain | ⟨r₁, _, hchain⟩ |
      ⟨middle, hmiddle, _, _, r₁, _, r₂, _, hchain⟩
    · rw [hchain] at h
      cases h
    · rw [hchain] at h
      obtain rfl := List.mem_singleton.mp h
      rintro table (rfl | rfl) <;> simp
    · rw [hchain] at h
      rcases List.mem_cons.mp h with rfl | h
      · rintro table (rfl | rfl)
        · exact Or.inl rfl
        · exact Or.inr (Or.inr hmiddle)
      · obtain rfl := List.mem_singleton.mp h
        rintro table (rfl | rfl)
        · exact Or.inr (Or.inr hmiddle)
        · exact Or.inr (Or.inl rfl)

/-- A chain compares columns of its own tables if all relationships of the schema do. -/
theorem comparesOwn_of_mem_chain (schema : Schema) (a b : String)
    (hschema : ∀ r ∈ schema.relationships, r.ComparesOwn) :
    ∀ r ∈ schema.chain a b, r.ComparesOwn := by
  -- a hop keeps the condition of a relationship and may swap its sides
  intro hop hhop pair hpair
  obtain ⟨r, hr, hon⟩ := schema.relationship?_of_mem_chain a b hop hhop
  obtain ⟨hmem, hsides⟩ := schema.relationship?_connects _ _ r hr
  obtain ⟨hleft, hright⟩ := hschema r hmem pair (by rwa [← hon])
  exact ⟨hleft.mono hsides.sides_subset, hright.mono hsides.sides_subset⟩

end Schema

/-! ## The relationships of a request -/

/-- A written column has no table, or one of the two given. -/
def Sql.ColumnRef.WrittenWithin (reference left right : String) : Prop :=
  ∀ table ∈ (ColumnRef.ofText reference).table, table = left ∨ table = right

instance (reference left right : String) : Decidable (ColumnRef.WrittenWithin reference left right) :=
  inferInstanceAs (Decidable (∀ table ∈ (ColumnRef.ofText reference).table, table = left ∨ table = right))

/-- The written columns of an entry for two tables name no other table. -/
def RelationshipEntry.NamesOwn (entry : RelationshipEntry) : Prop :=
  ∀ left right, entry.tables = [left, right] → ∀ pair ∈ Schema.textMembers entry.joinCondition,
    ColumnRef.WrittenWithin pair.1 left right ∧ ColumnRef.WrittenWithin pair.2 left right

namespace Schema

/-- A written column that names no other table than the two given belongs to one of them. -/
theorem qualified_belongsTo (reference left right table : String)
    (h : ColumnRef.WrittenWithin reference left right) (htable : table = left ∨ table = right) :
    (qualified reference table).BelongsTo [left, right] := by
  unfold qualified
  dsimp only
  split
  · next table' href =>
      refine ⟨table', ?_, href⟩
      simpa using h table' href
  · exact ⟨table, by simpa using htable, rfl⟩

/-- The relationships of a request compare columns of their own tables if its entries name no others. -/
theorem ofRequest_comparesOwn (request : Request) (h : ∀ e ∈ request.relationships, e.NamesOwn) :
    ∀ r ∈ (ofRequest request).relationships, r.ComparesOwn := by
  intro r hr
  obtain ⟨entry, hentry, hdeclares⟩ := List.mem_filterMap.mp hr
  unfold relationshipOf? at hdeclares
  split at hdeclares
  · next left right htables =>
      cases hdeclares
      intro pair hpair
      obtain ⟨⟨l, r⟩, hmem, rfl⟩ := List.mem_map.mp hpair
      obtain ⟨hl, hr⟩ := h entry hentry left right htables (l, r) hmem
      exact ⟨qualified_belongsTo l left right left hl (Or.inl rfl),
        qualified_belongsTo r left right right hr (Or.inr rfl)⟩
  · cases hdeclares

end Schema

end TextToSql
