import TextToSql.Proofs.Intent.Selection
import TextToSql.Proofs.Mention
import TextToSql.Proofs.Pattern.Occurrence

/-!
# The scan for tables

What the scan of a text for the names and aliases of tables gives, for every schema: names may start
alike, hold spaces or start and end with characters that belong to no word. And what the tables of a
question have to do with the mentions that the scan gives.

* `tableMentions_scan` : mentions are whole-word occurrences in text order that do not overlap, and every
  occurrence starts inside a mention;
* `tablesOf_eq` : the tables of a question are those that its mentions resolve to, where there are any.
-/

namespace TextToSql

open Pattern

/-! ## Lists without repetition -/

/-- Adding elements one by one leaves out those that are there and those that have been added. -/
theorem Intent.foldl_addNew_eq_eraseDups {α : Type} [DecidableEq α] (xs ys : List α) :
    ys.foldl addNew xs = xs ++ (ys.filter fun y => y ∉ xs).eraseDups := by
  induction ys generalizing xs with
  | nil => simp
  | cons y ys ih =>
      rw [List.foldl_cons, ih, addNew]
      by_cases hy : y ∈ xs
      · rw [if_pos hy, List.filter_cons_of_neg (by simpa using hy)]
      · rw [if_neg hy, List.filter_cons_of_pos (by simpa using hy), List.eraseDups_cons,
          List.filter_filter, List.append_assoc, List.singleton_append]
        congr 3
        refine List.filter_congr fun z _ => Bool.eq_iff_iff.mpr ?_
        simp [and_comm]

namespace Schema

/-! ## Mentions -/

/-- The terms that name a table: the names of the tables and their aliases, but not the empty text. -/
def NamesTable (schema : Schema) (term : String) : Prop :=
  (term ∈ schema.tableNames ∨ term ∈ schema.tableAliases.map Prod.fst) ∧ term ≠ ""

/-- **Mentions are occurrences** of terms that name a table. -/
theorem occurs_of_mem_tableMentions (schema : Schema) (text : String) (m : Match)
    (hm : m ∈ schema.tableMentions text) :
    ∃ before after, text = before ++ m.text ++ after ∧ m.offset = before.utf8ByteSize
      ∧ ∃ term, schema.NamesTable term ∧ Occurs term before m.text after := by
  have hne : schema.tableTerms ≠ [] := by
    intro hnil
    rw [tableMentions, hnil] at hm
    cases hm
  rw [tableMentions_eq text hne] at hm
  obtain ⟨before, after, htext, hoffset, term, hterm, hoccurs⟩ := occurs_of_mem_matchesIn _ hne text m hm
  exact ⟨before, after, htext, hoffset, term, (mem_tableTerms term).mp hterm, hoccurs⟩

/-- Mentions follow one another in the text and do not overlap. -/
theorem pairwise_tableMentions (schema : Schema) (text : String) :
    (schema.tableMentions text).Pairwise fun m m' =>
      m.offset < m'.offset ∧ m.offset + m.text.utf8ByteSize ≤ m'.offset := by
  by_cases hne : schema.tableTerms = []
  · rw [tableMentions, hne]
    exact .nil
  · rw [tableMentions_eq text hne]
    exact (finds_matchesIn _ text).pairwise.2

/-- **No occurrence is lost**: every one starts inside a mention. -/
theorem exists_mention_over (schema : Schema) (term : String) (hterm : schema.NamesTable term)
    (before part after : String) (h : Occurs term before part after) :
    ∃ m ∈ schema.tableMentions (before ++ part ++ after),
      m.offset ≤ before.utf8ByteSize ∧ before.utf8ByteSize < m.offset + m.text.utf8ByteSize := by
  have hmem : term ∈ schema.tableTerms := (mem_tableTerms term).mpr hterm
  have hempty : "" ∉ schema.tableTerms := fun hmem => ((mem_tableTerms "").mp hmem).2 rfl
  rw [tableMentions_eq _ (List.ne_nil_of_mem hmem)]
  exact exists_match_over _ hempty term hmem before part after h

/-- The tables that the mentions in a text resolve to, in text order. -/
def resolvedMentions (schema : Schema) (text : String) : List String :=
  (schema.tableMentions text).filterMap fun m => schema.resolveTable? (Text.lowerOf m.text)

end Schema

/-! ## Tables -/

namespace Intent

/-- **The tables of a question are those that its mentions resolve to**, each once and in the order of their
first mention. A question without such a mention has at most one table. -/
theorem tablesOf_eq (schema : Schema) (text : String) :
    (schema.resolvedMentions text ≠ [] → tablesOf schema text = (schema.resolvedMentions text).eraseDups)
      ∧ (schema.resolvedMentions text = [] → (tablesOf schema text).length ≤ 1) := by
  have hmentioned : mentionedTables schema text = (schema.resolvedMentions text).eraseDups := by
    rw [mentionedTables, foldl_addNew_eq_eraseDups, List.nil_append]
    congr 1
    exact List.filter_eq_self.mpr (by simp)
  unfold tablesOf
  rw [hmentioned]
  cases hresolved : schema.resolvedMentions text with
  | nil =>
      refine ⟨fun hne => absurd rfl hne, fun _ => ?_⟩
      cases impliedTable? schema text <;> simp
  | cons table tables =>
      rw [List.eraseDups_cons]
      exact ⟨fun _ => rfl, fun hnil => absurd hnil (List.cons_ne_nil _ _)⟩

end Intent

/-- **The scan for tables.** The mentions of tables in a text are parts of it, at the bytes that they give
and in text order, and do not overlap. Each one is, up to case, the name of a table or an alias between word
boundaries, and each such place starts inside a mention. Where some mention resolves, the tables of the
question are exactly those that the mentions resolve to, in the order of their first mention and each once;
otherwise there is one table at most. -/
theorem Schema.tableMentions_scan (schema : Schema) (text : String) :
    let mentions := schema.tableMentions text
    let resolved := schema.resolvedMentions text
    let tables := Intent.tablesOf schema text
    (∀ m ∈ mentions, ∃ before after, text = before ++ m.text ++ after ∧ m.offset = before.utf8ByteSize
        ∧ ∃ term, schema.NamesTable term ∧ Occurs term before m.text after)
      ∧ (mentions.Pairwise fun m m' =>
          m.offset < m'.offset ∧ m.offset + m.text.utf8ByteSize ≤ m'.offset)
      ∧ (∀ term before part after, schema.NamesTable term → text = before ++ part ++ after →
          Occurs term before part after → ∃ m ∈ mentions, m.offset ≤ before.utf8ByteSize
            ∧ before.utf8ByteSize < m.offset + m.text.utf8ByteSize)
      ∧ (resolved ≠ [] → tables = resolved.eraseDups ∧ tables.Nodup
          ∧ ∀ table, table ∈ tables ↔ table ∈ resolved)
      ∧ (resolved = [] → tables.length ≤ 1) := by
  intro mentions resolved tables
  obtain ⟨hsome, hnone⟩ := Intent.tablesOf_eq schema text
  refine ⟨occurs_of_mem_tableMentions schema text, pairwise_tableMentions schema text, ?_, ?_, hnone⟩
  · rintro term before part after hterm rfl hoccurs
    exact exists_mention_over schema term hterm before part after hoccurs
  · intro hne
    refine ⟨hsome hne, Intent.nodup_tablesOf schema text, fun table => ?_⟩
    show table ∈ Intent.tablesOf schema text ↔ table ∈ schema.resolvedMentions text
    rw [hsome hne, List.mem_eraseDups]

/-- A schema with a name that another name starts with, and an alias of two words. -/
def orderSchema : Schema where
  tables := [⟨"order", ["id"]⟩, ⟨"order_items", ["sku"]⟩]
  tableAliases := [("line items", "order_items")]
  columnAliases := []
  relationships := []
  metrics := []
  timePhrases := []

/-- A text that mentions a table twice, once by its alias, and another one between. -/
theorem Schema.tableMentions_scan_orderSchema :
    let text := "Line Items by order, then ORDER_items"
    (∃ m ∈ orderSchema.tableMentions text, m.offset ≤ 26 ∧ 26 < m.offset + m.text.utf8ByteSize)
      ∧ Intent.tablesOf orderSchema text = ["order_items", "order"] := by
  intro text
  obtain ⟨-, -, hover, hsome, -⟩ := Schema.tableMentions_scan orderSchema text
  constructor
  · exact hover "order_items" "Line Items by order, then " "ORDER_items" "" ⟨.inl (by decide), by decide⟩
      (by decide +kernel) (by decide +kernel)
  · exact (hsome (by decide +kernel)).1.trans (by decide +kernel)

end TextToSql
