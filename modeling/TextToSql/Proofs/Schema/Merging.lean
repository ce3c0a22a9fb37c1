import TextToSql.Proofs.Schema.Distinct
import TextToSql.Proofs.TableScan

/-!
# Merged declarations

A table may be declared any number of times, in one object of a request, in several of them and by tables that
are added later. Whatever the order, each table stands where it is declared first, and has the columns of all
its declarations, each where it is declared first.

* `mergeTable_gathered` : one more declaration is gathered with those before it;
* `tables_addTables` : the tables of a schema are its declarations, gathered;
* `merges_declarations` : what this means for the look-ups in a schema.
-/

namespace TextToSql.Schema

/-! ## Declarations -/

/-- The declarations in the objects of a request: tables with their columns, in order. -/
def declarations (objects : List (List (String × Json))) : List (String × List String) :=
  objects.flatten.map fun (name, value) => (name, textList value)

/-- The names of declared tables, each where it is declared first. -/
def declaredNames (ds : List (String × List String)) : List String := (ds.map Prod.fst).eraseDups

/-- The columns that are declared for a table, each where it is declared first. -/
def declaredColumns (ds : List (String × List String)) (table : String) : List String :=
  ((ds.filter fun d => d.1 = table).flatMap Prod.snd).eraseDups

/-- The tables that declarations amount to. -/
def gathered (ds : List (String × List String)) : List Table :=
  (declaredNames ds).map fun name => ⟨name, declaredColumns ds name⟩

/-- Adds tables to a schema, one after the other. -/
def addTables (schema : Schema) (ds : List (String × List String)) : Schema :=
  ds.foldl (fun schema (name, columns) => schema.addTable name columns) schema

/-! ## Lists without repetition -/

/-- Leaving out repetitions is adding the elements one by one. -/
theorem foldl_addNew_eraseDups {α : Type} [DecidableEq α] (xs ys : List α) :
    ys.foldl Intent.addNew xs.eraseDups = (xs ++ ys).eraseDups := by
  have hall : ∀ zs : List α, zs.eraseDups = zs.foldl Intent.addNew [] := by
    intro zs
    rw [Intent.foldl_addNew_eq_eraseDups]
    simp
  rw [hall xs, ← List.foldl_append, ← hall]

/-- No element is repeated where repetitions are left out. -/
theorem nodup_eraseDups {α : Type} [DecidableEq α] (xs : List α) : xs.eraseDups.Nodup := by
  rw [← List.nil_append xs, ← foldl_addNew_eraseDups]
  exact Intent.nodup_foldl_addNew _ xs List.nodup_nil

/-! ## One more declaration -/

/-- No declared name is repeated. -/
theorem nodup_declaredNames (ds : List (String × List String)) : (declaredNames ds).Nodup := nodup_eraseDups _

/-- Where one more table is declared, its name is added if it is new. -/
theorem declaredNames_snoc (ds : List (String × List String)) (name : String) (columns : List String) :
    declaredNames (ds ++ [(name, columns)]) = Intent.addNew (declaredNames ds) name := by
  rw [declaredNames, List.map_append, ← foldl_addNew_eraseDups]
  rfl

/-- Where one more table is declared, its columns are merged into those that it has; those of the others stay. -/
theorem declaredColumns_snoc (ds : List (String × List String)) (name : String) (columns : List String)
    (table : String) :
    declaredColumns (ds ++ [(name, columns)]) table
      = if table = name then mergeColumns (declaredColumns ds table) columns else declaredColumns ds table := by
  rw [declaredColumns, List.filter_append, List.flatMap_append]
  split
  · next heq =>
      have hlast : ([(name, columns)].filter fun d => d.1 = table) = [(name, columns)] := by simp [heq]
      rw [hlast, ← foldl_addNew_eraseDups, mergeColumns_eq, List.flatMap_singleton]
      rfl
  · next hne =>
      have hlast : ([(name, columns)].filter fun d => d.1 = table) = [] := by simp [Ne.symm hne]
      rw [hlast, List.flatMap_nil, List.append_nil]
      rfl

/-- A table that is not declared has no declared columns. -/
theorem declaredColumns_of_not_mem (ds : List (String × List String)) (table : String)
    (h : table ∉ declaredNames ds) : declaredColumns ds table = [] := by
  have hnone : (ds.filter fun d => d.1 = table) = [] := by
    refine List.filter_eq_nil_iff.mpr fun d hd heq => h ?_
    rw [declaredNames, List.mem_eraseDups]
    exact List.mem_map.mpr ⟨d, hd, of_decide_eq_true heq⟩
  rw [declaredColumns, hnone]
  rfl

/-- Merging a table into tables of distinct names touches the table of its name only, which is put behind the
others if there is none. -/
theorem mergeTable_map (columnsOf : String → List String) (names : List String) (hnodup : names.Nodup)
    (name : String) (columns : List String) (hnew : name ∉ names → columnsOf name = []) :
    mergeTable (names.map fun n => ⟨n, columnsOf n⟩) name columns
      = (Intent.addNew names name).map fun n =>
          ⟨n, if n = name then mergeColumns (columnsOf n) columns else columnsOf n⟩ := by
  induction names with
  | nil => simp [mergeTable, Intent.addNew, hnew]
  | cons n ns ih =>
      obtain ⟨hn, hns⟩ := List.nodup_cons.mp hnodup
      rw [List.map_cons, mergeTable]
      split
      · next heq =>
          obtain rfl : n = name := heq
          -- the names behind it are others
          have hothers : ∀ n' ∈ ns, n' ≠ n := fun n' hn' => ne_of_mem_of_not_mem hn' hn
          have hsame : Intent.addNew (n :: ns) n = n :: ns := if_pos List.mem_cons_self
          rw [hsame, List.map_cons, if_pos rfl]
          congr 1
          exact List.map_congr_left fun n' hn' => by rw [if_neg (hothers n' hn')]
      · next hne =>
          have hne : n ≠ name := hne
          have hrest := ih hns fun hname => hnew (by simp [hname, Ne.symm hne])
          have hadd : Intent.addNew (n :: ns) name = n :: Intent.addNew ns name := by
            simp only [Intent.addNew, List.mem_cons, Ne.symm hne, false_or]
            split <;> rfl
          rw [hrest, hadd, List.map_cons, if_neg hne]

/-- **One more declaration** is gathered with those before it. -/
theorem mergeTable_gathered (ds : List (String × List String)) (name : String) (columns : List String) :
    mergeTable (gathered ds) name columns = gathered (ds ++ [(name, columns)]) := by
  rw [gathered, mergeTable_map (declaredColumns ds) _ (nodup_declaredNames ds) name columns
    (declaredColumns_of_not_mem ds name), gathered, declaredNames_snoc]
  refine List.map_congr_left fun n _ => ?_
  rw [declaredColumns_snoc]

/-! ## The tables of a schema -/

/-- Declarations are gathered one after the other. -/
theorem foldl_mergeTable_gathered (ds ds' : List (String × List String)) :
    ds'.foldl (fun tables d => mergeTable tables d.1 d.2) (gathered ds) = gathered (ds ++ ds') := by
  induction ds' generalizing ds with
  | nil => rw [List.foldl_nil, List.append_nil]
  | cons d ds' ih => rw [List.foldl_cons, mergeTable_gathered, ih, List.append_assoc, List.singleton_append]

/-- The objects of a request declare their tables, gathered. -/
theorem declaredTables_eq (objects : List (List (String × Json))) :
    declaredTables objects = gathered (declarations objects) := by
  have hfold := foldl_mergeTable_gathered [] (declarations objects)
  rw [declarations, List.foldl_map, List.nil_append] at hfold
  exact hfold

/-- Tables are added to the tables. -/
theorem tables_addTables_eq (schema : Schema) (ds : List (String × List String)) :
    (schema.addTables ds).tables = ds.foldl (fun tables d => mergeTable tables d.1 d.2) schema.tables := by
  induction ds generalizing schema with
  | nil => rfl
  | cons d ds ih => exact ih (schema.addTable d.1 d.2)

/-- **The tables of a schema** are its declarations, gathered: those of the request and those added later. -/
theorem tables_addTables (request : Request) (later : List (String × List String)) :
    ((ofRequest request).addTables later).tables = gathered (declarations request.schema ++ later) := by
  rw [tables_addTables_eq, ← foldl_mergeTable_gathered, ← declaredTables_eq]
  rfl

/-! ## Looking up declarations -/

section Gathered

variable {schema : Schema} {ds : List (String × List String)}

/-- The tables are named as they are declared. -/
theorem tableNames_of_gathered (h : schema.tables = gathered ds) : schema.tableNames = declaredNames ds := by
  rw [tableNames, h, gathered, List.map_map]
  exact List.map_id _

/-- A table has the columns that are declared for it, and one that is not declared has none. -/
theorem columns_of_gathered (h : schema.tables = gathered ds) (table : String) :
    schema.columns table = declaredColumns ds table := by
  have hfind : schema.tables.find? (fun t => t.name = table)
      = ((declaredNames ds).find? fun n => n = table).map fun n => ⟨n, declaredColumns ds n⟩ := by
    rw [h, gathered, List.find?_map]
    rfl
  rw [columns, hfind]
  cases hname : (declaredNames ds).find? fun n => n = table with
  | none =>
      refine (declaredColumns_of_not_mem ds table fun hmem => ?_).symm
      simpa using List.find?_eq_none.mp hname table hmem
  | some n =>
      obtain rfl : n = table := by simpa using List.find?_some hname
      rfl

/-- A table has a column exactly if some declaration of the table lists it. -/
theorem hasColumn_iff_of_gathered (h : schema.tables = gathered ds) (table column : String) :
    schema.hasColumn table column ↔ ∃ d ∈ ds, d.1 = table ∧ column ∈ d.2 := by
  rw [hasColumn, columns_of_gathered h, List.contains_iff_mem, declaredColumns, List.mem_eraseDups]
  simp [and_assoc]

/-- All columns are those of the tables, table by table. -/
theorem allColumns_of_gathered (h : schema.tables = gathered ds) :
    schema.allColumns = schema.tableNames.flatMap fun t => (schema.columns t).map fun c => (t, c) := by
  simp only [tableNames_of_gathered h, columns_of_gathered h]
  rw [allColumns, h, gathered, List.flatMap_map]

end Gathered

/-- A table that is added changes no other table. -/
theorem find?_mergeTable_of_ne (tables : List Table) (name : String) (columns : List String) (table : String)
    (hne : table ≠ name) :
    (mergeTable tables name columns).find? (fun t => t.name = table)
      = tables.find? fun t => t.name = table := by
  induction tables with
  | nil => simp [mergeTable, Ne.symm hne]
  | cons t ts ih =>
      rw [mergeTable]
      split
      · next heq =>
          have hother : t.name ≠ table := fun h => hne (h.symm.trans heq)
          rw [List.find?_cons_of_neg (by simpa using hother), List.find?_cons_of_neg (by simpa using hother)]
      · rw [List.find?_cons, List.find?_cons, ih]

/-- The texts that are listed by a value: the value itself, or the texts among its items. -/
theorem mem_textList_iff (value : Json) (c : String) :
    c ∈ textList value ↔ value = .string c ∨ ∃ items, value = .array items ∧ .string c ∈ items := by
  cases value with
  | string s => simp [textList, eq_comm]
  | array items =>
      simp only [textList, List.mem_filterMap, reduceCtorEq, false_or, Json.array.injEq, exists_eq_left']
      constructor
      · rintro ⟨item, hitem, hvalue⟩
        split at hvalue
        · cases hvalue
          exact hitem
        · cases hvalue
      · exact fun hitem => ⟨.string c, hitem, rfl⟩
  | null | bool | number | object => simp [textList]

/-- A declaration of a request that lists a column is a member of one of its objects that does. -/
theorem exists_mem_declarations_iff (objects : List (List (String × Json))) (table column : String) :
    (∃ d ∈ declarations objects, d.1 = table ∧ column ∈ d.2)
      ↔ ∃ members ∈ objects, ∃ value, (table, value) ∈ members
          ∧ (value = .string column ∨ ∃ items, value = .array items ∧ .string column ∈ items) := by
  simp only [← mem_textList_iff, declarations, List.mem_map, List.mem_flatten]
  constructor
  · rintro ⟨_, ⟨⟨name, value⟩, ⟨members, hmembers, hmem⟩, rfl⟩, rfl, hcolumn⟩
    exact ⟨members, hmembers, value, hmem, hcolumn⟩
  · rintro ⟨members, hmembers, value, hmem, hcolumn⟩
    exact ⟨_, ⟨(table, value), ⟨members, hmembers, hmem⟩, rfl⟩, rfl, hcolumn⟩

/-- **Merging declarations.** The tables of a schema are the declared names and the columns of a table are all
that its declarations list, each where it comes first. So no name is repeated, nor is a column of a table, and
the look-ups say the same. One more declaration changes no other table, and it does not matter how the
declarations of a request are divided into objects. -/
theorem merges_declarations (request : Request) (later : List (String × List String)) :
    let schema := (ofRequest request).addTables later
    let ds := declarations request.schema ++ later
    schema.tableNames = (ds.map Prod.fst).eraseDups
      ∧ (∀ table, schema.columns table = ((ds.filter fun d => d.1 = table).flatMap Prod.snd).eraseDups)
      ∧ schema.tableNames.Nodup
      ∧ (∀ table, (schema.columns table).Nodup)
      ∧ (∀ table column, schema.hasColumn table column
          ↔ (∃ members ∈ request.schema, ∃ value, (table, value) ∈ members
              ∧ (value = .string column ∨ ∃ items, value = .array items ∧ .string column ∈ items))
            ∨ ∃ d ∈ later, d.1 = table ∧ column ∈ d.2)
      ∧ schema.allColumns = schema.tableNames.flatMap (fun t => (schema.columns t).map fun c => (t, c))
      ∧ (∀ name columns table, table ≠ name →
          (schema.addTable name columns).columns table = schema.columns table
            ∧ (schema.addTable name columns).hasTable table = schema.hasTable table)
      ∧ ∀ before objects after, request.schema = before ++ [objects.flatten] ++ after →
          (ofRequest { request with schema := before ++ objects ++ after }).addTables later = schema := by
  intro schema ds
  have htables : schema.tables = gathered ds := tables_addTables request later
  refine ⟨tableNames_of_gathered htables, columns_of_gathered htables, ?_, ?_, ?_, allColumns_of_gathered htables,
    ?_, ?_⟩
  · rw [tableNames_of_gathered htables]
    exact nodup_declaredNames ds
  · intro table
    rw [columns_of_gathered htables]
    exact nodup_eraseDups _
  · intro table column
    simp only [hasColumn_iff_of_gathered htables, ← exists_mem_declarations_iff, ds, List.mem_append,
      or_and_right, exists_or]
  · intro name columns table hne
    have hfind := find?_mergeTable_of_ne schema.tables name columns table hne
    refine ⟨?_, ?_⟩
    · rw [Schema.columns, Schema.columns, addTable, hfind]
    · rw [hasTable, hasTable, addTable, ← List.isSome_find?, ← List.isSome_find?, hfind]
  · intro before objects after hobjects
    have hsame : declaredTables (before ++ objects ++ after) = declaredTables request.schema := by
      rw [declaredTables, declaredTables, hobjects]
      simp only [List.flatten_append, List.flatten_singleton]
    show addTables { ofRequest request with tables := declaredTables (before ++ objects ++ after) } later = schema
    rw [hsame]
    rfl

/-- A request that declares the table of orders twice and lists values of many kinds. -/
def scattered : Request where
  query := ""
  schema := [
    [("orders", .array [.string "id", .number "7", .string "status", .string "id"]), ("customers", .string "name")],
    [("orders", .array [.string "total", .null, .string "status"]), ("notes", .bool true)]]
  relationships := []
  tableAliases := []
  columnAliases := []
  businessMetrics := []
  timePeriods := none

/-- Tables that are added to those of a request, and a request with its first object divided. -/
theorem merges_declarations_scattered :
    let later := [("customers", ["name", "city"]), ("items", ["sku"]), ("orders", ["city"])]
    let schema := (ofRequest scattered).addTables later
    let divided := { scattered with schema := [
      [("orders", .array [.string "id", .number "7", .string "status", .string "id"])],
      [("customers", .string "name")],
      [("orders", .array [.string "total", .null, .string "status"]), ("notes", .bool true)]] }
    schema.tableNames = ["orders", "customers", "notes", "items"]
      ∧ schema.columns "orders" = ["id", "status", "total", "city"]
      ∧ schema.hasColumn "customers" "name"
      ∧ "orders" ≠ "items"
      ∧ (schema.addTable "items" ["id", "sku"]).columns "orders" = ["id", "status", "total", "city"]
      ∧ (ofRequest divided).addTables later = schema := by
  intro later schema divided
  obtain ⟨hnames, hcolumns, -, -, hhas, -, hother, hdivided⟩ := merges_declarations scattered later
  have horders : schema.columns "orders" = ["id", "status", "total", "city"] :=
    (hcolumns "orders").trans (by decide +kernel)
  have hne : "orders" ≠ "items" := by decide
  refine ⟨hnames.trans (by decide +kernel), horders, ?_, hne, ?_, ?_⟩
  · exact (hhas "customers" "name").mpr (.inl ⟨_, List.mem_cons_self, .string "name", by simp, .inl rfl⟩)
  · exact (hother "items" ["id", "sku"] "orders" hne).1.trans horders
  · exact hdivided [] [_, _] [_] rfl

end TextToSql.Schema
