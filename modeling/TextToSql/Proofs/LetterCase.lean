import TextToSql.Proofs.TableScan
import TextToSql.Proofs.Text.Lower

/-!
# Letter case in the names of tables

The scan for tables reads a text in any letter case, but a mention is looked up by its lower case among the
names as they are declared. So the name of a table is found by its mentions where it has no capital letter;
a name with one is hidden by them, and the mentions then stand for the table with an `s` behind the small
name, if there is one.

The long s stays as it is in lower case although it is an s up to case. A mention with a long s names no
table in ASCII, but it may name the plural of itself.

* `lowerOf_of_folds` : the lower case of what is a plain name up to case;
* `resolveTable?_of_mentionsOnly` : what a mention resolves to where only one name is mentioned;
* `Intent.tablesOf_of_mentionsOnly` : the tables of a question that mentions only one name.
-/

namespace TextToSql

open Pattern Text Unicode

/-! ## Characters -/

namespace Unicode

/-- What holds of the long s, of the Kelvin sign and of the ASCII characters whose small form is plain
holds of all that is a letter, a digit or an underscore of ASCII up to case. -/
theorem sameFold_plain_elim {p : Char → Prop}
    (hascii : ∀ n < 0x80, isPlainChar (Char.ofNat n).toLower → p (Char.ofNat n)) (hlong : p '\u017F')
    (hkelvin : p '\u212A') (a c : Char) (ha : isPlainChar a.toLower) (h : sameFold a c) : p c := by
  have hfold : foldChar c = a.toLower := by
    rw [← beq_iff_eq.mp h, foldChar, if_pos (lt_of_isPlainChar_toLower a ha)]
  have hpos : 0 < a.toLower.toNat :=
    isPlainChar_elim (p := fun c => 0 < c.toNat) (by decide +kernel) _ ha
  rcases lt_or_eq_of_foldChar_lt c (by rw [hfold]; exact lt_of_isPlainChar _ ha) (by rwa [hfold])
    with hc | rfl | rfl
  · have hp := hascii c.toNat hc
    rw [Char.ofNat_toNat] at hp
    refine hp ?_
    rwa [← hfold, foldChar, if_pos hc] at ha
  · exact hlong
  · exact hkelvin

/-- What is a letter, a digit or an underscore of ASCII up to case is a word character, keeps its folding
in lower case and, but for the long s, is folded there. -/
theorem lowerChar_of_sameFold (a c : Char) (ha : isPlainChar a.toLower) (h : sameFold a c) :
    isWordChar c ∧ sameFold (lowerChar c) c ∧ (c ≠ '\u017F' → lowerChar c = a.toLower) := by
  have hfold : foldChar c = a.toLower := by
    rw [← beq_iff_eq.mp h, foldChar, if_pos (lt_of_isPlainChar_toLower a ha)]
  have hc : isWordChar c ∧ sameFold (lowerChar c) c ∧ (c ≠ '\u017F' → lowerChar c = foldChar c) :=
    sameFold_plain_elim (p := fun c => isWordChar c ∧ sameFold (lowerChar c) c
      ∧ (c ≠ '\u017F' → lowerChar c = foldChar c)) (by decide +kernel) (by decide +kernel)
      (by decide +kernel) a c ha h
  rwa [hfold] at hc

end Unicode

/-! ## Texts up to case -/

namespace Text

/-- The lower case of a text without the two characters whose lower case depends on their neighbours or is
longer goes character by character. -/
theorem lower_eq_map (s : List Char) (hs : ∀ c ∈ s, c.toNat ≠ 0x3A3 ∧ c.toNat ≠ 0x130) :
    lower s = s.map lowerChar := by
  suffices h : ∀ before, lowerAfter before s = s.map lowerChar by exact h []
  induction s with
  | nil => intro before; rfl
  | cons c s ih =>
      obtain ⟨⟨hsigma, hdotted⟩, hs⟩ := List.forall_mem_cons.mp hs
      intro before
      rw [lowerAfter, lowerAt, if_neg hsigma, if_neg hdotted, ih hs, List.map_cons, List.singleton_append]

/-- The characters of the lower case of a string. -/
theorem toList_lowerOf (s : String) : (lowerOf s).toList = lower s.toList := String.toList_ofList

section Folds

variable {t s : List Char} (ht : IsPlain (t.map Char.toLower)) (h : Folds t s)
include ht h

/-- Each character of what is a plain name up to case is a character of the name up to case. -/
theorem exists_of_mem_folds (c : Char) (hc : c ∈ s) : ∃ a, isPlainChar a.toLower ∧ sameFold a c := by
  induction h with
  | nil => cases hc
  | cons hfold _ ih =>
      rw [List.map_cons] at ht
      rcases List.mem_cons.mp hc with rfl | hc
      · exact ⟨_, ht _ List.mem_cons_self, hfold⟩
      · exact ih (fun a ha => ht a (List.mem_cons_of_mem _ ha)) hc

/-- What is a plain name up to case is made of word characters. -/
theorem isWordChar_of_folds (c : Char) (hc : c ∈ s) : isWordChar c := by
  obtain ⟨a, ha, hfold⟩ := exists_of_mem_folds ht h c hc
  exact (lowerChar_of_sameFold a c ha hfold).1

/-- The lower case of what is a plain name up to case goes character by character. -/
theorem lower_of_folds : lower s = s.map lowerChar := by
  refine lower_eq_map s ?_
  intro c hc
  obtain ⟨a, ha, hfold⟩ := exists_of_mem_folds ht h c hc
  exact sameFold_plain_elim (p := fun c => c.toNat ≠ 0x3A3 ∧ c.toNat ≠ 0x130) (by decide +kernel)
    (by decide +kernel) (by decide +kernel) a c ha hfold

/-- The lower case of what is a plain name up to case is the same up to case. -/
theorem folds_lower : Folds (lower s) s := by
  rw [lower_of_folds ht h, Folds, List.forall₂_map_left_iff, List.forall₂_same]
  intro c hc
  obtain ⟨a, ha, hfold⟩ := exists_of_mem_folds ht h c hc
  exact (lowerChar_of_sameFold a c ha hfold).2.1

/-- A long s stays in the lower case. -/
theorem long_mem_lower (hlong : '\u017F' ∈ s) : '\u017F' ∈ lower s := by
  have hstays : lowerChar '\u017F' = '\u017F' := by decide +kernel
  rw [lower_of_folds ht h, ← hstays]
  exact List.mem_map_of_mem hlong

/-- **The lower case of what is a plain name up to case** is the small name, if there is no long s. -/
theorem lower_eq_of_folds (hlong : '\u017F' ∉ s) : lower s = t.map Char.toLower := by
  rw [lower_of_folds ht h]
  induction h with
  | nil => rfl
  | cons hfold _ ih =>
      rw [List.map_cons] at ht
      rw [List.mem_cons, not_or] at hlong
      rw [List.map_cons, List.map_cons, ih (fun a ha => ht a (List.mem_cons_of_mem _ ha)) hlong.2,
        (lowerChar_of_sameFold _ _ (ht _ List.mem_cons_self) hfold).2.2 (Ne.symm hlong.1)]

end Folds

end Text

/-! ## The only name in a text -/

/-- A text that mentions a table by its name, which is made of letters, digits and underscores of ASCII, in
whatever letter case, while no other name of a table and no alias occurs in it. -/
structure Schema.MentionsOnly (schema : Schema) (t text : String) : Prop where
  declared : t ∈ schema.tableNames
  plain : IsPlain (t.toList.map Char.toLower)
  ne_empty : t ≠ ""
  occurs : ∃ before part after, text = before ++ part ++ after
    ∧ part.toList.map Char.toLower = t.toList.map Char.toLower ∧ Occurs t before part after
  sole : ∀ term before part after, schema.NamesTable term → text = before ++ part ++ after →
    Occurs term before part after → term = t

namespace Schema

variable {schema : Schema} {t text : String}

/-- A name is the only one in a text that none of the others is found in as a whole word. -/
theorem sole_of_not_occursIn
    (hothers : ∀ term ∈ schema.tableTerms, term ≠ t → (whole (lit term)).occursIn text = false)
    (term before part after : String) (hterm : schema.NamesTable term)
    (htext : text = before ++ part ++ after) (hoccurs : Occurs term before part after) : term = t := by
  by_contra hne
  have hfound : (whole (lit term)).occursIn text :=
    (occursIn_whole_lit_iff term text).mpr ⟨before, part, after, htext, hoccurs⟩
  exact Bool.false_ne_true ((hothers term ((mem_tableTerms term).mpr hterm) hne).symm.trans hfound)

variable (h : schema.MentionsOnly t text)
include h

/-- Each mention is the name up to case. -/
theorem folds_of_mentionsOnly (m : Match) (hm : m ∈ schema.tableMentions text) :
    Folds t.toList m.text.toList
      ∧ ∃ before after, text = before ++ m.text ++ after ∧ Occurs t before m.text after := by
  obtain ⟨before, after, htext, -, term, hterm, hoccurs⟩ := occurs_of_mem_tableMentions schema text m hm
  obtain rfl := h.sole term before m.text after hterm htext hoccurs
  exact ⟨hoccurs.folds, before, after, htext, hoccurs⟩

/-- Whatever the scan takes at a place is the name up to case. -/
theorem folds_of_mem_runs (x y : List Char) (r : Run) (hxy : text.toList = x ++ y)
    (hr : r ∈ (whole (oneOf schema.tableTerms)).runs (lastOf none x) y) : Folds t.toList r.taken := by
  have hterms : schema.tableTerms ≠ [] :=
    List.ne_nil_of_mem ((mem_tableTerms t).mpr ⟨.inl h.declared, h.ne_empty⟩)
  obtain rfl := taken_append_rest _ _ _ r hr
  obtain ⟨term, hterm, hoccurs⟩ :=
    (mem_runs_whole_oneOf schema.tableTerms hterms x r.taken r.rest).mp ⟨r, hr, rfl, rfl⟩
  have hsplit : text = String.ofList x ++ String.ofList r.taken ++ String.ofList r.rest := by
    rw [← String.ofList_append, ← String.ofList_append, List.append_assoc, ← hxy, String.ofList_toList]
  obtain rfl := h.sole term _ _ _ ((mem_tableTerms term).mp hterm) hsplit hoccurs
  simpa only [String.toList_ofList] using hoccurs.folds

/-- What is taken from an earlier place does not reach into an occurrence of the name: it would hold the
word boundary there. -/
theorem eq_nil_of_reaches (x y : List Char) (r : Run) (before part after : String)
    (hoccurs : Occurs t before part after) (hbefore : before.toList = x ++ y)
    (hfolds : Folds t.toList r.taken) (hinit : y <+: r.taken) : y = [] := by
  rw [← List.getLast?_eq_none_iff]
  cases hlast : y.getLast? with
  | none => rfl
  | some c =>
      have hc : isWordChar c :=
        isWordChar_of_folds h.plain hfolds c (hinit.subset (List.mem_of_mem_getLast? hlast))
      have hpart := hoccurs.folds.ne_nil (mt String.toList_eq_nil_iff.mp h.ne_empty)
      have hhead : isWordChar (part.toList.head hpart) :=
        isWordChar_of_folds h.plain hoccurs.folds _ (List.head_mem hpart)
      have hstarts := hoccurs.starts
      rw [hbefore, List.getLast?_append, hlast, List.head?_append, List.head?_eq_some_head hpart] at hstarts
      simp [isBoundary, hc, hhead] at hstarts

/-- **Where the name occurs, there is a mention.** -/
theorem exists_mention_of_occurs (before part after : String) (htext : text = before ++ part ++ after)
    (hoccurs : Occurs t before part after) : ∃ m ∈ schema.tableMentions text, m.text = part := by
  have hterm : t ∈ schema.tableTerms := (mem_tableTerms t).mpr ⟨.inl h.declared, h.ne_empty⟩
  have hne := List.ne_nil_of_mem hterm
  have hplace : text.toList = before.toList ++ (part.toList ++ after.toList) := by
    simp only [htext, String.toList_append, List.append_assoc]
  obtain ⟨r', hr', -, -⟩ := (mem_runs_whole_oneOf _ hne before.toList part.toList after.toList).mpr
    ⟨t, hterm, by simpa only [String.ofList_toList] using hoccurs⟩
  obtain ⟨r, rs, hruns⟩ := List.exists_cons_of_ne_nil (List.ne_nil_of_mem hr')
  have hr : r.taken ≠ [] :=
    (folds_of_mem_runs h _ _ r hplace (by rw [hruns]; exact List.mem_cons_self)).ne_nil
      (mt String.toList_eq_nil_iff.mp h.ne_empty)
  obtain ⟨x, y, hbefore, r'', hr'', hlength, m, hm, hmtext⟩ :=
    covers_of_runs _ text before.toList _ hplace r rs hruns hr
  have htaken := taken_append_rest _ _ _ r'' hr''
  have hfolds := folds_of_mem_runs h x _ r'' (by rw [hplace, hbefore, List.append_assoc]) hr''
  have hinit : y <+: r''.taken :=
    List.prefix_of_prefix_length_le ⟨_, rfl⟩ ⟨r''.rest, htaken⟩ (Nat.le_of_lt hlength)
  obtain rfl := eq_nil_of_reaches h x y r'' before part after hoccurs hbefore hfolds hinit
  -- both are the name up to case, so they are equally long
  have heq : r''.taken = part.toList :=
    List.append_inj_left htaken (by rw [← hfolds.length_eq, hoccurs.folds.length_eq])
  rw [← tableMentions_eq text hne] at hm
  exact ⟨m, hm, by rw [hmtext, heq, String.ofList_toList]⟩

/-- The tables that a mention of the name resolves to: the table of that name, if the lower case of the
mention is its name, else the plural of the lower case, if it is declared. -/
theorem resolveTable?_of_mentionsOnly (m : Match) (hm : m ∈ schema.tableMentions text) :
    schema.resolveTable? (lowerOf m.text)
      = if lowerOf m.text = t then some t
        else if lowerOf m.text ++ "s" ∈ schema.tableNames then some (lowerOf m.text ++ "s") else none := by
  obtain ⟨hfolds, before, after, htext, hoccurs⟩ := folds_of_mentionsOnly h m hm
  -- the lower case of a mention occurs where the mention does
  have hlower : Occurs (lowerOf m.text) before m.text after := by
    refine ⟨?_, hoccurs.starts, hoccurs.ends⟩
    rw [toList_lowerOf]
    exact folds_lower h.plain hfolds
  by_cases heq : lowerOf m.text = t
  · rw [if_pos heq, heq]
    exact resolveTable?_of_mem t h.declared
  · rw [if_neg heq]
    have hne : lowerOf m.text ≠ "" := by
      intro hnil
      have hlength := hlower.folds.length_eq
      rw [hnil, ← hfolds.length_eq] at hlength
      exact h.ne_empty (String.toList_eq_nil_iff.mp (List.eq_nil_of_length_eq_zero hlength.symm))
    have hother : ¬ schema.NamesTable (lowerOf m.text) := fun hterm =>
      heq (h.sole _ before m.text after hterm htext hlower)
    have hname : lowerOf m.text ∉ schema.tableNames := fun hname => hother ⟨.inl hname, hne⟩
    have halias : schema.tableAliases.find? (fun entry => entry.1 = lowerOf m.text) = none := by
      rw [List.find?_eq_none]
      intro entry hentry hkey
      have hmem : lowerOf m.text ∈ schema.tableAliases.map Prod.fst :=
        List.mem_map.mpr ⟨entry, hentry, of_decide_eq_true hkey⟩
      exact hother ⟨.inr hmem, hne⟩
    rw [resolveTable?, if_neg (mt (hasTable_iff _).mp hname), halias]
    simp only [hasTable_iff]

/-- **The name of a table is found by its mentions exactly where it has no capital letter.** -/
theorem mem_resolvedMentions_iff : t ∈ schema.resolvedMentions text ↔ lowerOf t = t := by
  have hsmall : lowerOf t = t ↔ t.toList.map Char.toLower = t.toList := by
    rw [← String.toList_inj, toList_lowerOf, IsPlain.lower_written h.plain]
  rw [hsmall, resolvedMentions, List.mem_filterMap]
  constructor
  · rintro ⟨m, hm, hresolve⟩
    obtain ⟨hfolds, -⟩ := folds_of_mentionsOnly h m hm
    rw [resolveTable?_of_mentionsOnly h m hm] at hresolve
    split at hresolve
    · next heq =>
        -- a long s would be one of the name, which has none
        have hlong : '\u017F' ∉ m.text.toList := by
          intro hmem
          have hlower := long_mem_lower h.plain hfolds hmem
          rw [← toList_lowerOf, heq] at hlower
          exact absurd (h.plain _ (List.mem_map_of_mem hlower)) (by decide)
        rw [← lower_eq_of_folds h.plain hfolds hlong, ← toList_lowerOf, heq]
    · split at hresolve
      -- the plural is longer than the name
      · have hlength := hfolds.length_eq
        rw [← (folds_lower h.plain hfolds).length_eq] at hlength
        have hplural := congrArg (fun s => s.toList.length) (Option.some.inj hresolve)
        simp [lowerOf, hlength] at hplural
      · cases hresolve
  · intro heq
    obtain ⟨before, part, after, htext, hcase, hoccurs⟩ := h.occurs
    obtain ⟨m, hm, rfl⟩ := exists_mention_of_occurs h before part after htext hoccurs
    have hlower : lowerOf m.text = t := by
      rw [lowerOf, IsPlain.lower_written (by rw [hcase]; exact h.plain), hcase, heq, String.ofList_toList]
    refine ⟨m, hm, ?_⟩
    rw [resolveTable?_of_mentionsOnly h m hm, if_pos hlower]

/-- What a mention with no long s resolves to: the table of the name, if it has no capital letter, else the
plural of the small name, if it is declared. -/
theorem resolveTable?_of_short (m : Match) (hm : m ∈ schema.tableMentions text)
    (hlong : '\u017F' ∉ m.text.toList) :
    schema.resolveTable? (lowerOf m.text)
      = if lowerOf t = t then some t
        else if lowerOf t ++ "s" ∈ schema.tableNames then some (lowerOf t ++ "s") else none := by
  obtain ⟨hfolds, -⟩ := folds_of_mentionsOnly h m hm
  have hlower : lowerOf m.text = lowerOf t := by
    rw [← String.toList_inj, toList_lowerOf, toList_lowerOf, lower_eq_of_folds h.plain hfolds hlong,
      IsPlain.lower_written h.plain]
  rw [resolveTable?_of_mentionsOnly h m hm, hlower]

/-- A mention with a long s names no table, where no name of a table has one. -/
theorem resolveTable?_of_long (hnames : ∀ name ∈ schema.tableNames, '\u017F' ∉ name.toList) (m : Match)
    (hm : m ∈ schema.tableMentions text) (hlong : '\u017F' ∈ m.text.toList) :
    schema.resolveTable? (lowerOf m.text) = none := by
  obtain ⟨hfolds, -⟩ := folds_of_mentionsOnly h m hm
  have hlower : '\u017F' ∈ (lowerOf m.text).toList := by
    rw [toList_lowerOf]
    exact long_mem_lower h.plain hfolds hlong
  have hname : lowerOf m.text ≠ t := fun heq => hnames t h.declared (by rwa [← heq])
  have hplural : lowerOf m.text ++ "s" ∉ schema.tableNames := fun hmem =>
    hnames _ hmem (by rw [String.toList_append]; exact List.mem_append_left _ hlower)
  rw [resolveTable?_of_mentionsOnly h m hm, if_neg hname, if_neg hplural]

end Schema

/-! ## The tables of a question -/

namespace Intent

/-- A list whose elements are all the same has that one once. -/
theorem eraseDups_eq_singleton {α : Type} [DecidableEq α] (xs : List α) (x : α) (hne : xs ≠ [])
    (h : ∀ y ∈ xs, y = x) : xs.eraseDups = [x] := by
  obtain ⟨y, ys, rfl⟩ := List.exists_cons_of_ne_nil hne
  obtain ⟨rfl, hys⟩ := List.forall_mem_cons.mp h
  have hnone : ys.filter (fun z => !z == y) = [] :=
    List.filter_eq_nil_iff.mpr fun z hz => by simp [hys z hz]
  rw [List.eraseDups_cons, hnone]
  rfl

/-- A question in which every mention resolves to the same table or to none has that table only. -/
theorem tablesOf_of_resolvedMentions (schema : Schema) (text : String) (found : Option String)
    (hall : ∀ table ∈ schema.resolvedMentions text, some table = found)
    (hsome : found ≠ none → schema.resolvedMentions text ≠ []) :
    tablesOf schema text = (found.or (impliedTable? schema text)).toList := by
  cases found with
  | none =>
      have hnil : schema.resolvedMentions text = [] :=
        List.eq_nil_iff_forall_not_mem.mpr fun table htable => nomatch hall table htable
      have hmentioned : mentionedTables schema text = [] := congrArg (List.foldl addNew []) hnil
      rw [tablesOf, hmentioned, Option.none_or]
  | some table =>
      have hne := hsome (Option.some_ne_none table)
      rw [(tablesOf_eq schema text).1 hne, eraseDups_eq_singleton _ table hne
        fun table' htable => Option.some.inj (hall table' htable)]
      rfl

/-- **Letter case in the names of tables.** In a text that mentions one table by its name, a plain word in
whatever letter case it is declared and mentioned, the mention leads to the table exactly where its declared
name has no capital letter. Where no declared name has a long s, the tables of the question are then that
table alone; where the name has a capital letter, they are the table with an `s` behind the small name, if
there is one, else the table that the question implies, if any. -/
theorem tablesOf_of_mentionsOnly (schema : Schema) (t text : String) (h : schema.MentionsOnly t text) :
    (t ∈ schema.resolvedMentions text ↔ lowerOf t = t)
      ∧ ((∀ name ∈ schema.tableNames, '\u017F' ∉ name.toList) →
          tablesOf schema text
            = if lowerOf t = t then [t]
              else if lowerOf t ++ "s" ∈ schema.tableNames then [lowerOf t ++ "s"]
              else (impliedTable? schema text).toList) := by
  refine ⟨Schema.mem_resolvedMentions_iff h, ?_⟩
  intro hnames
  let found := if lowerOf t = t then some t
    else if lowerOf t ++ "s" ∈ schema.tableNames then some (lowerOf t ++ "s") else none
  have htables : tablesOf schema text = (found.or (impliedTable? schema text)).toList := by
    refine tablesOf_of_resolvedMentions schema text found ?_ ?_
    · intro table htable
      obtain ⟨m, hm, hresolve⟩ := List.mem_filterMap.mp htable
      by_cases hlong : '\u017F' ∈ m.text.toList
      · rw [Schema.resolveTable?_of_long h hnames m hm hlong] at hresolve
        cases hresolve
      · rw [← hresolve, Schema.resolveTable?_of_short h m hm hlong]
    -- the mention in ASCII has no long s
    · intro hfound
      obtain ⟨before, part, after, htext, hcase, hoccurs⟩ := h.occurs
      obtain ⟨m, hm, rfl⟩ := Schema.exists_mention_of_occurs h before part after htext hoccurs
      have hshort : '\u017F' ∉ m.text.toList := by
        intro hlong
        have hplain := List.mem_map_of_mem (f := Char.toLower) hlong
        rw [hcase] at hplain
        exact absurd (h.plain _ hplain) (by decide)
      obtain ⟨table, htable⟩ := Option.ne_none_iff_exists'.mp hfound
      refine List.ne_nil_of_mem (a := table) (List.mem_filterMap.mpr ⟨m, hm, ?_⟩)
      rw [Schema.resolveTable?_of_short h m hm hshort]
      exact htable
  rw [htables]
  show (Option.or (ite _ _ _) _).toList = _
  split
  · rfl
  · split <;> simp

/-- A schema with a table whose name has a capital letter, and the default table. -/
def capitalSchema : Schema where
  tables := [⟨"Customers", ["id"]⟩, ⟨"orders", ["order_id"]⟩]
  tableAliases := []
  columnAliases := []
  relationships := []
  metrics := []
  timePhrases := []

/-- A small name is found in capital letters; a name with a capital letter is not found in small ones. -/
theorem tablesOf_of_mentionsOnly_capitalSchema :
    capitalSchema.MentionsOnly "orders" "show ORDERS" ∧ tablesOf capitalSchema "show ORDERS" = ["orders"]
      ∧ capitalSchema.MentionsOnly "Customers" "show customers"
      ∧ "Customers" ∉ capitalSchema.resolvedMentions "show customers" := by
  have horders : capitalSchema.MentionsOnly "orders" "show ORDERS" :=
    ⟨by decide, by decide, by decide,
      ⟨"show ", "ORDERS", "", by decide, by decide, by decide +kernel⟩,
      Schema.sole_of_not_occursIn (by decide +kernel)⟩
  have hcustomers : capitalSchema.MentionsOnly "Customers" "show customers" :=
    ⟨by decide, by decide, by decide,
      ⟨"show ", "customers", "", by decide, by decide, by decide +kernel⟩,
      Schema.sole_of_not_occursIn (by decide +kernel)⟩
  refine ⟨horders, ?_, hcustomers, ?_⟩
  · obtain ⟨-, htables⟩ := tablesOf_of_mentionsOnly capitalSchema "orders" "show ORDERS" horders
    exact (htables (by decide)).trans (if_pos (by decide))
  · obtain ⟨hfound, -⟩ := tablesOf_of_mentionsOnly capitalSchema "Customers" "show customers" hcustomers
    exact mt hfound.mp (by decide)

/-- A question for a table under the very name that it is declared with is taken for one about another
table. -/
theorem not_tablesOf_capitalSchema :
    capitalSchema.MentionsOnly "Customers" "show Customers"
      ∧ tablesOf capitalSchema "show Customers" ≠ ["Customers"]
      ∧ tablesOf capitalSchema "show Customers" = ["orders"] := by
  have hcustomers : capitalSchema.MentionsOnly "Customers" "show Customers" :=
    ⟨by decide, by decide, by decide,
      ⟨"show ", "Customers", "", by decide, by decide, by decide +kernel⟩,
      Schema.sole_of_not_occursIn (by decide +kernel)⟩
  exact ⟨hcustomers, by decide +kernel, by decide +kernel⟩

end Intent

end TextToSql
