import TextToSql.Proofs.Intent.Selection
import TextToSql.Proofs.Normalize
import TextToSql.Proofs.Pattern.Whole
import TextToSql.Proofs.Schema.Declare

/-!
# A mentioned table is selected

Where all tables and aliases are named by plain words, none of them is lost between the question and the
tables of its statement: the words of the schema are protected in the normal form, no name is hidden by
one that starts alike, and a term is resolved to the table before its alias.

* `mem_vocabulary_of_mem_tableTerms` : what a table is mentioned by is a protected word;
* `exists_mention` : a protected word of the normal form is one of the mentions;
* `Request.tables_of_mention` : the table that a question mentions is one of its tables.
-/

namespace TextToSql

open Text

/-- A schema whose tables and aliases are named by plain words. -/
structure Schema.HasPlainNames (schema : Schema) : Prop where
  tables : ∀ name ∈ schema.tableNames, IsPlain name.toList
  aliases : ∀ entry ∈ schema.tableAliases, IsPlain entry.1.toList

/-- A request that declares a table of the given name. -/
def Request.DeclaresTable (request : Request) (name : String) : Prop :=
  ∃ members ∈ request.schema, name ∈ members.map Prod.fst

/-- The table aliases of a request with their targets, as it writes them. -/
def Request.declaredAliases (request : Request) : List (String × String) :=
  Schema.textMembers request.tableAliases

/-- A request whose tables and aliases are named by plain words. -/
structure Request.HasPlainNames (request : Request) : Prop where
  tables : ∀ name, request.DeclaresTable name → IsPlain name.toList
  aliases : ∀ entry ∈ request.declaredAliases, IsPlain entry.1.toList

namespace Schema

variable {schema : Schema}

/-! ## Terms -/

/-- The words of a phrase of plain words. -/
theorem wordsOfPhrase_intercalate (ws : List String)
    (h : ∀ word ∈ ws, word ≠ "" ∧ IsPlain word.toList) : wordsOfPhrase (" ".intercalate ws) = ws := by
  have hpieces : ∀ piece ∈ ws.map String.toList, piece ≠ [] ∧ WhiteFree piece := by
    intro piece hpiece
    obtain ⟨word, hword, rfl⟩ := List.mem_map.mp hpiece
    exact ⟨mt String.toList_eq_nil_iff.mp (h word hword).1, (h word hword).2.whiteFree⟩
  have hlower : ∀ word ∈ ws, lowerOf word = word := by
    intro word hword
    rw [lowerOf, (h word hword).2.lower_eq, String.ofList_toList]
  have hspace : " ".toList = [' '] := rfl
  rw [wordsOfPhrase, wordsOf, String.toList_intercalate, hspace, words_intercalate _ hpieces,
    List.map_map, List.map_map]
  calc ws.map (lowerOf ∘ String.ofList ∘ String.toList) = ws.map id :=
        List.map_congr_left fun word hword => by simpa using hlower word hword
    _ = ws := List.map_id ws

/-- A plain word is the only word of itself as a phrase. -/
theorem wordsOfPhrase_of_isPlain (word : String) (hne : word ≠ "") (hplain : IsPlain word.toList) :
    wordsOfPhrase word = [word] := by
  simpa using wordsOfPhrase_intercalate [word] (by simpa using ⟨hne, hplain⟩)

/-- A term that a table is mentioned by is its name or an alias. -/
theorem mem_tableTerms (term : String) :
    term ∈ schema.tableTerms
      ↔ (term ∈ schema.tableNames ∨ term ∈ schema.tableAliases.map Prod.fst) ∧ term ≠ "" := by
  simp [tableTerms, or_and_right]

/-- The terms of plain names are plain. -/
theorem HasPlainNames.isPlain_of_mem_tableTerms (h : schema.HasPlainNames) (term : String)
    (hterm : term ∈ schema.tableTerms) : IsPlain term.toList := by
  rcases ((mem_tableTerms term).mp hterm).1 with hname | halias
  · exact h.tables term hname
  · obtain ⟨entry, hentry, rfl⟩ := List.mem_map.mp halias
    exact h.aliases entry hentry

/-- **What a table is mentioned by is a protected word**, where the names are plain. -/
theorem mem_vocabulary_of_mem_tableTerms (h : schema.HasPlainNames) (term : String)
    (hterm : term ∈ schema.tableTerms) : term ∈ schema.vocabulary := by
  have hwords := wordsOfPhrase_of_isPlain term ((mem_tableTerms term).mp hterm).2
    (h.isPlain_of_mem_tableTerms term hterm)
  have hword : term ∈ wordsOfPhrase term := by simp [hwords]
  simp only [vocabulary, List.mem_append, or_assoc]
  rcases ((mem_tableTerms term).mp hterm).1 with hname | halias
  · obtain ⟨t, ht, rfl⟩ := List.mem_map.mp hname
    exact Or.inl (List.mem_flatMap.mpr ⟨t, ht, List.mem_flatMap.mpr ⟨t.name, by simp, hword⟩⟩)
  · obtain ⟨entry, hentry, rfl⟩ := List.mem_map.mp halias
    exact Or.inr (Or.inl
      (List.mem_flatMap.mpr ⟨entry, hentry, List.mem_flatMap.mpr ⟨entry.1, by simp, hword⟩⟩))

/-! ## Mentions -/

/-- The mentions of tables are the matches of the terms, where there are any. -/
theorem tableMentions_eq (text : String) (h : schema.tableTerms ≠ []) :
    schema.tableMentions text
      = (Pattern.whole (Pattern.oneOf schema.tableTerms)).matchesIn text := by
  unfold tableMentions
  split
  · next hnil => exact absurd hnil h
  · rfl

/-- **A term that stands among the words of a text is one of the mentions** in its normal form. -/
theorem exists_mention (h : schema.HasPlainNames) (text term : String)
    (hterm : term ∈ schema.tableTerms) (hstop : term ∉ Normalize.stopwords)
    (hoccurs : ∃ written ∈ words text.toList, written.map Char.toLower = term.toList) :
    ∃ m ∈ schema.tableMentions (Normalize.cleanText schema.vocabulary text), m.text = term := by
  obtain ⟨written, hwritten, hlower⟩ := hoccurs
  have hterms : ∀ t ∈ schema.tableTerms, t ≠ "" ∧ ' ' ∉ t.toList := by
    intro t ht
    refine ⟨((mem_tableTerms t).mp ht).2, ?_⟩
    intro hspace
    exact absurd (h.isPlain_of_mem_tableTerms t ht ' ' hspace) (by decide)
  have hplain := h.isPlain_of_mem_tableTerms term hterm
  have hwordChars : ∀ c ∈ term.toList, Unicode.isWordChar c :=
    fun c hc => isWordChar_of_isPlainChar c (hplain c hc)
  have hclean : term.toList ∈ Normalize.cleanWords schema.vocabulary text.toList := by
    rw [← hlower]
    refine Normalize.mem_cleanWords _ _ written hwritten ?_ ?_ ?_
    · rwa [hlower]
    · rwa [hlower, String.ofList_toList]
    · rw [hlower, String.ofList_toList]
      exact mem_vocabulary_of_mem_tableTerms h term hterm
  obtain ⟨before, after, htext, hbefore, hafter⟩ := Normalize.cleanText_of_mem _ text _ hclean
  rw [tableMentions_eq _ (List.ne_nil_of_mem hterm)]
  exact Pattern.exists_match_of_word _ hterms term hterm hwordChars _ before after htext hbefore hafter

/-! ## Resolution -/

/-- A table is declared exactly when its name is. -/
theorem hasTable_iff (name : String) : schema.hasTable name ↔ name ∈ schema.tableNames := by
  simp [hasTable, tableNames]

/-- The name of a table resolves to the table. -/
theorem resolveTable?_of_mem (term : String) (h : term ∈ schema.tableNames) :
    schema.resolveTable? term = some term := by
  rw [resolveTable?, if_pos ((hasTable_iff term).mpr h)]

/-- The first entry of a name holds what the name is looked up as. -/
theorem find?_map_snd {β : Type} (entries : List (String × β)) (name : String) :
    (entries.find? fun entry => entry.1 = name).map Prod.snd = entries.lookup name := by
  induction entries with
  | nil => rfl
  | cons entry entries ih =>
      obtain ⟨key, value⟩ := entry
      by_cases heq : name = key
      · subst heq
        simp
      · have hlookup : (name == key) = false := by simpa using heq
        rw [List.find?_cons_of_neg (by simpa [eq_comm] using heq), List.lookup_cons, hlookup, ih]

/-- An alias that is no table resolves to the target of its first declaration. -/
theorem resolveTable?_of_lookup (term target : String) (hname : term ∉ schema.tableNames)
    (h : schema.tableAliases.lookup term = some target) : schema.resolveTable? term = some target := by
  rw [← find?_map_snd, Option.map_eq_some_iff] at h
  obtain ⟨entry, hfind, rfl⟩ := h
  rw [resolveTable?, if_neg (mt (hasTable_iff term).mp hname), hfind]

end Schema

namespace Intent

/-- A table that a mention resolves to is one of the tables of the question. -/
theorem mem_tablesOf_of_mention (schema : Schema) (text : String) (m : Match) (table : String)
    (hm : m ∈ schema.tableMentions text)
    (hresolve : schema.resolveTable? (Text.lowerOf m.text) = some table) :
    table ∈ tablesOf schema text := by
  have hmentioned : table ∈ mentionedTables schema text := by
    rw [mentionedTables, mem_foldl_addNew, List.mem_filterMap]
    exact Or.inr ⟨m, hm, hresolve⟩
  unfold tablesOf
  split
  · next hnil => simp [hnil] at hmentioned
  · exact hmentioned

/-- A term that stands among the words of a text resolves to one of its tables. -/
theorem mem_tablesOf_of_word (schema : Schema) (h : schema.HasPlainNames) (text term table : String)
    (hterm : term ∈ schema.tableTerms) (hstop : term ∉ Normalize.stopwords)
    (hoccurs : ∃ written ∈ words text.toList, written.map Char.toLower = term.toList)
    (hresolve : schema.resolveTable? term = some table) :
    table ∈ tablesOf schema (Normalize.cleanText schema.vocabulary text) := by
  obtain ⟨m, hm, htext⟩ := Schema.exists_mention h text term hterm hstop hoccurs
  refine mem_tablesOf_of_mention schema _ m table hm ?_
  have hplain := h.isPlain_of_mem_tableTerms term hterm
  rw [htext, lowerOf, hplain.lower_eq, String.ofList_toList, hresolve]

end Intent

/-! ## Requests -/

namespace Schema

/-- Merging a table adds its name. -/
theorem mem_names_mergeTable (tables : List Table) (name : String) (columns : List String)
    (n : String) :
    n ∈ (mergeTable tables name columns).map Table.name ↔ n ∈ tables.map Table.name ∨ n = name := by
  induction tables with
  | nil => simp [mergeTable]
  | cons t ts ih =>
      unfold mergeTable
      split
      · next heq => simp [heq]; tauto
      · rw [List.map_cons, List.mem_cons, ih, List.map_cons, List.mem_cons, or_assoc]

/-- The tables of a request are named as it declares them. -/
theorem mem_tableNames_ofRequest (request : Request) (name : String) :
    name ∈ (ofRequest request).tableNames ↔ request.DeclaresTable name := by
  have hfold : ∀ (members : List (String × Json)) (tables : List Table),
      name ∈ (members.foldl (fun ts m => mergeTable ts m.1 (textList m.2)) tables).map Table.name
        ↔ name ∈ tables.map Table.name ∨ name ∈ members.map Prod.fst := by
    intro members
    induction members with
    | nil => simp
    | cons m ms ih =>
        intro tables
        rw [List.foldl_cons, ih, mem_names_mergeTable, List.map_cons, List.mem_cons, or_assoc]
  have hnames := hfold request.schema.flatten []
  simpa [tableNames, ofRequest, declaredTables, Request.DeclaresTable] using hnames

/-- Plain aliases are kept as they are written. -/
theorem tableAliases_ofRequest (request : Request) (h : request.HasPlainNames) :
    (ofRequest request).tableAliases = request.declaredAliases := by
  have hkept : ∀ entry ∈ request.declaredAliases, (lowerOf entry.1, entry.2) = entry := by
    intro entry hentry
    rw [lowerOf, (h.aliases entry hentry).lower_eq, String.ofList_toList]
  exact (List.map_congr_left hkept).trans (List.map_id _)

/-- The schema of a request with plain names has plain names. -/
theorem hasPlainNames_ofRequest (request : Request) (h : request.HasPlainNames) :
    (ofRequest request).HasPlainNames where
  tables := fun name hname => h.tables name ((mem_tableNames_ofRequest request name).mp hname)
  aliases := by
    rw [tableAliases_ofRequest request h]
    exact h.aliases

end Schema

/-- **A mentioned table is selected.** Where tables and aliases are named by plain words, a word of the
text that is no stopword selects the table of that name, else the target of the first alias of that
name. -/
theorem Request.tables_of_mention (request : Request) (h : request.HasPlainNames)
    (text word : String) (hstop : word ∉ Normalize.stopwords)
    (hoccurs : ∃ written ∈ wordsOf text, written.toLower = word) :
    let schema := Schema.ofRequest request
    let tables := Intent.tablesOf schema (Normalize.cleanText schema.vocabulary text)
    (request.DeclaresTable word → word ∈ tables)
      ∧ (¬ request.DeclaresTable word → word ∈ request.declaredAliases.map Prod.fst →
          ∃ target, request.declaredAliases.lookup word = some target ∧ target ∈ tables) := by
  intro schema tables
  have hplain : schema.HasPlainNames := Schema.hasPlainNames_ofRequest request h
  have hoccurs' : ∃ written ∈ words text.toList, written.map Char.toLower = word.toList := by
    obtain ⟨_, hwritten, rfl⟩ := hoccurs
    obtain ⟨written, hmem, rfl⟩ := List.mem_map.mp hwritten
    exact ⟨written, hmem, by simp [String.toLower]⟩
  have hne : word ≠ "" := by
    rintro rfl
    obtain ⟨written, hwritten, hnil⟩ := hoccurs'
    exact words_ne_nil _ written hwritten (List.map_eq_nil_iff.mp hnil)
  constructor
  · intro hdeclared
    have hname : word ∈ schema.tableNames := (Schema.mem_tableNames_ofRequest request word).mpr hdeclared
    exact Intent.mem_tablesOf_of_word schema hplain text word word
      ((Schema.mem_tableTerms word).mpr ⟨Or.inl hname, hne⟩) hstop hoccurs'
      (Schema.resolveTable?_of_mem word hname)
  · intro hundeclared halias
    have hname : word ∉ schema.tableNames :=
      mt (Schema.mem_tableNames_ofRequest request word).mp hundeclared
    have haliases : schema.tableAliases = request.declaredAliases :=
      Schema.tableAliases_ofRequest request h
    rw [← haliases] at halias ⊢
    obtain ⟨target, hlookup⟩ : ∃ target, schema.tableAliases.lookup word = some target := by
      rw [← Option.isSome_iff_exists]
      simpa [List.lookup_isSome_iff] using halias
    exact ⟨target, hlookup, Intent.mem_tablesOf_of_word schema hplain text word target
      ((Schema.mem_tableTerms word).mpr ⟨Or.inr halias, hne⟩) hstop hoccurs'
      (Schema.resolveTable?_of_lookup word target hname hlookup)⟩

/-- A request with a name that another name starts with, and two aliases of one name. -/
def prefixed : Request where
  query := "Every ORDER_Items by Client"
  schema := [[("order", .array [.string "id"]), ("order_items", .array [.string "sku"])]]
  relationships := []
  tableAliases := [("client", .string "customers"), ("client", .string "order")]
  columnAliases := []
  businessMetrics := []
  timePeriods := none

/-- Its question mentions the table with the longer name, and the target of the first alias. -/
theorem Request.tables_of_mention_prefixed :
    prefixed.HasPlainNames
      ∧ "order_items" ∈ Intent.tablesOf (Schema.ofRequest prefixed)
          (Normalize.cleanText (Schema.ofRequest prefixed).vocabulary prefixed.query)
      ∧ "customers" ∈ Intent.tablesOf (Schema.ofRequest prefixed)
          (Normalize.cleanText (Schema.ofRequest prefixed).vocabulary prefixed.query) := by
  have hplain : prefixed.HasPlainNames := by
    refine ⟨?_, ?_⟩
    · rintro name ⟨members, hmembers, hname⟩
      obtain rfl := List.mem_singleton.mp hmembers
      have hall : ∀ name ∈ ["order", "order_items"], IsPlain name.toList := by decide +kernel
      exact hall name hname
    · decide +kernel
  have hundeclared : ¬ prefixed.DeclaresTable "client" := by
    rintro ⟨members, hmembers, hname⟩
    obtain rfl := List.mem_singleton.mp hmembers
    exact absurd hname (by decide)
  have htable := prefixed.tables_of_mention hplain prefixed.query "order_items" (by decide +kernel)
    ⟨"ORDER_Items", by decide +kernel, by decide +kernel⟩
  have halias := prefixed.tables_of_mention hplain prefixed.query "client" (by decide +kernel)
    ⟨"Client", by decide +kernel, by decide +kernel⟩
  obtain ⟨target, htarget, hmem⟩ := halias.2 hundeclared (by decide)
  obtain rfl : target = "customers" := (Option.some.inj htarget).symm
  exact ⟨hplain, htable.1 ⟨_, List.mem_singleton_self _, by decide⟩, hmem⟩

end TextToSql
