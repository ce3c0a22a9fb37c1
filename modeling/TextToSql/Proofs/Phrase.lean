import TextToSql.Proofs.Mention

/-!
# Declared phrases in the normal form

The words of a declared phrase are protected. So where a question has them one after the other, its normal
form has them, too, but for the stopwords among them: a phrase without stopwords is still mentioned, and of
a phrase with stopwords the rest is.

* `mem_vocabulary_of_declares` : the words of a declared phrase are protected;
* `Request.mentions_declared` : what is left of a declared phrase is mentioned in the normal form.
-/

namespace TextToSql

open Text

/-- The time phrases of a request: those that it writes, else the built-in ones. -/
def Request.writtenTimePhrases (request : Request) : List String :=
  match request.timePeriods with
  | some members => (Schema.textMembers members).map Prod.fst
  | none => Schema.builtinTimePhrases.map NamedSql.phrase

/-- A phrase that a request gives a meaning: a business metric, a time phrase, or an alias of a table or of
a column. -/
def Request.DeclaresPhrase (request : Request) (phrase : String) : Prop :=
  phrase ∈ (Schema.textMembers request.businessMetrics).map Prod.fst
    ∨ phrase ∈ request.writtenTimePhrases
    ∨ phrase ∈ request.declaredAliases.map Prod.fst
    ∨ ∃ entry ∈ request.columnAliases, phrase ∈ Schema.textList entry.2

/-- Plain words that make up a declared phrase. -/
structure Request.DeclaresWords (request : Request) (ws : List String) : Prop where
  nonempty : ws ≠ []
  plain : ∀ word ∈ ws, word ≠ "" ∧ IsPlain word.toList
  declared : request.DeclaresPhrase (" ".intercalate ws)

namespace Schema

/-! ## Protected words -/

/-- A phrase of plain words is its own lower case. -/
theorem lowerOf_intercalate (ws : List String) (h : ∀ word ∈ ws, IsPlain word.toList) :
    lowerOf (" ".intercalate ws) = " ".intercalate ws := by
  have hpieces : ∀ piece ∈ ws.map String.toList, IsPlain piece := by simpa using h
  have hspace : " ".toList = [' '] := rfl
  rw [lowerOf, String.toList_intercalate, hspace, lower_intercalate _ hpieces, ← hspace,
    ← String.toList_intercalate, String.ofList_toList]

/-- A time phrase that a request writes in lower case is one of the schema. -/
theorem exists_timePhrase (request : Request) (phrase : String) (hlower : lowerOf phrase = phrase)
    (h : phrase ∈ request.writtenTimePhrases) :
    ∃ p ∈ (ofRequest request).timePhrases, p.phrase = phrase := by
  unfold Request.writtenTimePhrases at h
  show ∃ p ∈ (match request.timePeriods with
    | some members => namedSql members
    | none => builtinTimePhrases), p.phrase = phrase
  split at h
  · next members _ =>
      obtain ⟨entry, hentry, rfl⟩ := List.mem_map.mp h
      exact ⟨⟨lowerOf entry.1, entry.2⟩, List.mem_map_of_mem hentry, hlower⟩
  · exact List.mem_map.mp h

/-- The words of a phrase that a request declares in lower case are protected. -/
theorem wordsOfPhrase_subset_vocabulary (request : Request) (phrase : String)
    (hlower : lowerOf phrase = phrase) (h : request.DeclaresPhrase phrase) :
    wordsOfPhrase phrase ⊆ (ofRequest request).vocabulary := by
  intro word hword
  simp only [vocabulary, List.mem_append, or_assoc]
  rcases h with hmetric | htime | halias | ⟨entry, hentry, hname⟩
  · obtain ⟨entry, hentry, rfl⟩ := List.mem_map.mp hmetric
    have hmem : (⟨lowerOf entry.1, entry.2⟩ : NamedSql) ∈ (ofRequest request).metrics :=
      List.mem_map_of_mem hentry
    refine Or.inr (Or.inr (Or.inr (Or.inl (List.mem_flatMap.mpr ⟨_, hmem, ?_⟩))))
    rwa [hlower]
  · obtain ⟨p, hp, hphrase⟩ := exists_timePhrase request phrase hlower htime
    refine Or.inr (Or.inr (Or.inr (Or.inr (List.mem_flatMap.mpr ⟨p, hp, ?_⟩))))
    rwa [hphrase]
  · obtain ⟨entry, hentry, rfl⟩ := List.mem_map.mp halias
    have hmem : (lowerOf entry.1, entry.2) ∈ (ofRequest request).tableAliases :=
      List.mem_map_of_mem hentry
    refine Or.inr (Or.inl (List.mem_flatMap.mpr ⟨_, hmem, ?_⟩))
    exact List.mem_flatMap.mpr ⟨lowerOf entry.1, List.mem_cons_self, by rwa [hlower]⟩
  · have hmem : (entry.1, (textList entry.2).map lowerOf) ∈ (ofRequest request).columnAliases :=
      List.mem_map_of_mem hentry
    refine Or.inr (Or.inr (Or.inl (List.mem_flatMap.mpr ⟨_, hmem, ?_⟩)))
    exact List.mem_flatMap.mpr ⟨lowerOf phrase,
      List.mem_cons_of_mem _ (List.mem_map_of_mem hname), by rwa [hlower]⟩

/-- **The words of a declared phrase are protected.** -/
theorem mem_vocabulary_of_declares (request : Request) (ws : List String)
    (h : request.DeclaresWords ws) : ∀ word ∈ ws, word ∈ (ofRequest request).vocabulary := by
  intro word hword
  have hlower := lowerOf_intercalate ws fun word hword => (h.plain word hword).2
  refine wordsOfPhrase_subset_vocabulary request _ hlower h.declared ?_
  rwa [wordsOfPhrase_intercalate ws h.plain]

/-! ## Mentions -/

/-- A text that is made of words separated by spaces starts and ends with a word character. -/
theorem isWordChar_ends (pieces : List (List Char)) (hne : pieces ≠ [])
    (h : ∀ piece ∈ pieces, piece ≠ [] ∧ ∀ c ∈ piece, Unicode.isWordChar c) :
    [' '].intercalate pieces ≠ []
      ∧ (∀ c ∈ ([' '].intercalate pieces).head?, Unicode.isWordChar c)
      ∧ ∀ c ∈ ([' '].intercalate pieces).getLast?, Unicode.isWordChar c := by
  induction pieces with
  | nil => exact absurd rfl hne
  | cons piece pieces ih =>
      obtain ⟨⟨hpiece, hchars⟩, hpieces⟩ := List.forall_mem_cons.mp h
      cases pieces with
      | nil =>
          rw [List.intercalate_singleton]
          exact ⟨hpiece, fun c hc => hchars c (List.mem_of_mem_head? hc),
            fun c hc => hchars c (List.mem_of_mem_getLast? hc)⟩
      | cons next pieces =>
          obtain ⟨hrest, -, hlast⟩ := ih (List.cons_ne_nil _ _) hpieces
          rw [List.intercalate_cons_cons, List.append_assoc]
          refine ⟨List.append_ne_nil_of_left_ne_nil hpiece _, ?_, ?_⟩
          · intro c hc
            rw [List.head?_append_of_ne_nil _ hpiece] at hc
            exact hchars c (List.mem_of_mem_head? hc)
          · intro c hc
            rw [List.getLast?_append_of_ne_nil _ (by simp), List.getLast?_append_of_ne_nil _ hrest] at hc
            exact hlast c hc

/-- Plain words that stand one after the other in a normal form are mentioned there as a phrase. -/
theorem mentionsPhrase_cleanText (protectedWords : List String) (text : String) (ws : List String)
    (hne : ws ≠ []) (hplain : ∀ word ∈ ws, word ≠ "" ∧ IsPlain word.toList)
    (hpart : ws.map String.toList <:+: Normalize.cleanWords protectedWords text.toList) :
    mentionsPhrase (Normalize.cleanText protectedWords text) (" ".intercalate ws) := by
  have hpieces : ∀ piece ∈ ws.map String.toList, piece ≠ [] ∧ ∀ c ∈ piece, Unicode.isWordChar c := by
    intro piece hpiece
    obtain ⟨word, hword, rfl⟩ := List.mem_map.mp hpiece
    refine ⟨mt String.toList_eq_nil_iff.mp (hplain word hword).1, ?_⟩
    exact fun c hc => isWordChar_of_isPlainChar c ((hplain word hword).2 c hc)
  have hphrase : (" ".intercalate ws).toList = [' '].intercalate (ws.map String.toList) :=
    String.toList_intercalate
  have hlist : ws.map String.toList ≠ [] := by simpa using hne
  obtain ⟨hends, hfirst, hlast⟩ := isWordChar_ends _ hlist hpieces
  obtain ⟨before, after, htext, hbefore, hafter⟩ := Normalize.cleanText_of_part _ text _ hlist hpart
  rw [← hphrase] at hends hfirst hlast htext
  exact Pattern.occursIn_whole_lit _ _ before after htext hends hfirst hlast hbefore hafter

end Schema

/-- **What is left of a declared phrase is mentioned.** If a text has the words of a declared phrase one
after the other, in whatever letter case, its normal form mentions the phrase of those that are no
stopwords; so a phrase without stopwords is mentioned as it was declared. -/
theorem Request.mentions_declared (request : Request) (ws : List String)
    (h : request.DeclaresWords ws) (text : String)
    (hoccurs : ∃ written, written <:+: wordsOf text ∧ written.map String.toLower = ws) :
    let clean := Normalize.cleanText (Schema.ofRequest request).vocabulary text
    let kept := ws.filter fun word => !Normalize.stopwords.contains word
    (kept ≠ [] → Schema.mentionsPhrase clean (" ".intercalate kept))
      ∧ ((∀ word ∈ ws, word ∉ Normalize.stopwords) →
          Schema.mentionsPhrase clean (" ".intercalate ws)) := by
  intro clean kept
  obtain ⟨_, hwritten, hlower⟩ := hoccurs
  obtain ⟨written, hpart, rfl⟩ := List.infix_map_iff.mp hwritten
  have hsmall : written.map (List.map Char.toLower) = ws.map String.toList := by
    rw [← hlower, List.map_map, List.map_map]
    exact List.map_congr_left fun word _ => by simp [String.toLower]
  have hword : ∀ word ∈ written, ∃ w ∈ ws, word.map Char.toLower = w.toList := by
    intro word hword
    have hmem : word.map Char.toLower ∈ ws.map String.toList := by
      rw [← hsmall]
      exact List.mem_map_of_mem hword
    obtain ⟨w, hw, heq⟩ := List.mem_map.mp hmem
    exact ⟨w, hw, heq.symm⟩
  have hplain : ∀ word ∈ written, IsPlain (word.map Char.toLower) := by
    intro word hmem
    obtain ⟨w, hw, heq⟩ := hword word hmem
    rw [heq]
    exact (h.plain w hw).2
  have hprotected : ∀ word ∈ written,
      String.ofList (word.map Char.toLower) ∈ (Schema.ofRequest request).vocabulary := by
    intro word hmem
    obtain ⟨w, hw, heq⟩ := hword word hmem
    rw [heq, String.ofList_toList]
    exact Schema.mem_vocabulary_of_declares request ws h w hw
  have hclean : kept.map String.toList
      <:+: Normalize.cleanWords (Schema.ofRequest request).vocabulary text.toList := by
    have hstay := Normalize.cleanWords_of_part _ text.toList written hpart hplain hprotected
    rw [hsmall, List.filter_map] at hstay
    simpa [kept, Function.comp_def] using hstay
  have hkept : kept ≠ [] → Schema.mentionsPhrase clean (" ".intercalate kept) := fun hne =>
    Schema.mentionsPhrase_cleanText _ text kept hne
      (fun word hword => h.plain word (List.mem_of_mem_filter hword)) hclean
  refine ⟨hkept, ?_⟩
  intro hstop
  have hall : kept = ws := List.filter_eq_self.mpr fun word hword => by simpa using hstop word hword
  rw [hall] at hkept
  exact hkept h.nonempty

/-- A request with a metric that has a stopword in its name. -/
def visited : Request where
  query := "time on site of visits"
  schema := [[("visits", .array [.string "id"])]]
  relationships := []
  tableAliases := []
  columnAliases := []
  businessMetrics := [("time on site", .string "AVG(d)")]
  timePeriods := none

/-- Its question has the words of the metric, and the normal form mentions what is left of them. -/
theorem Request.mentions_declared_visited :
    visited.DeclaresWords ["time", "on", "site"]
      ∧ ["time", "on", "site"] <:+: wordsOf visited.query
      ∧ Schema.mentionsPhrase
          (Normalize.cleanText (Schema.ofRequest visited).vocabulary visited.query) "time site" := by
  have hdeclares : visited.DeclaresWords ["time", "on", "site"] :=
    ⟨by decide, by decide +kernel, Or.inl (by decide +kernel)⟩
  have hpart : ["time", "on", "site"] <:+: wordsOf visited.query :=
    ⟨[], ["of", "visits"], by decide +kernel⟩
  have hkept := (visited.mentions_declared ["time", "on", "site"] hdeclares visited.query
    ⟨_, hpart, by decide +kernel⟩).1 (by decide)
  exact ⟨hdeclares, hpart, hkept⟩

/-- The metric itself is not mentioned in the normal form of its question: the stopword is dropped from
it. -/
theorem Request.not_mentioned_visited :
    visited.DeclaresWords ["time", "on", "site"]
      ∧ ["time", "on", "site"] <:+: wordsOf visited.query
      ∧ Schema.mentionsPhrase
          (Normalize.cleanText (Schema.ofRequest visited).vocabulary visited.query)
          (" ".intercalate ["time", "on", "site"]) = false :=
  ⟨⟨by decide, by decide +kernel, Or.inl (by decide +kernel)⟩,
    ⟨[], ["of", "visits"], by decide +kernel⟩, by decide +kernel⟩

end TextToSql
