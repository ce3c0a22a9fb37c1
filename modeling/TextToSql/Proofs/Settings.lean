import TextToSql.Settings.Basic

/-!
# Which source chooses a setting

A tree of values has places: a key leads into a table, and the last one to a value. Setting a place leaves
every other place alone, unless one of them lies on the way to the other. No place of a known variable does,
so each variable of the environment that is set chooses its setting, whatever the file has there or on the
way there, and what no variable chooses is left to the file and the defaults.

* `Value.at?_setAt`, `Value.at?_setAt_of_apart` : what a tree has where a value is set, and elsewhere;
* `at?_layVariables`, `at?_layVariables_of_apart` : what it has when all variables are laid over it;
* `load_eq_some` : where the settings come from;
* `load_chosen` : the settings that the environment chooses.
-/

namespace TextToSql.Settings

namespace Value

/-! ## Places -/

/-- What a tree of values has at a place: every key leads into a table. -/
def at? : List String → Value → Option Value
  | [], root => some root
  | key :: keys, root => (root.entries.find? key).bind (at? keys)

/-- Two places of which none lies on the way to the other. -/
def Apart (place other : List String) : Prop := ¬ place <+: other ∧ ¬ other <+: place

instance (place other : List String) : Decidable (Apart place other) :=
  inferInstanceAs (Decidable (¬ place <+: other ∧ ¬ other <+: place))

/-- A value that is no table. -/
def IsLeaf (value : Value) : Prop := ∀ entries, value ≠ table entries

/-- Places inside a table are apart where the places are. -/
theorem apart_cons (key : String) (keys others : List String) :
    Apart (key :: keys) (key :: others) ↔ Apart keys others := by
  simp [Apart, List.cons_prefix_cons]

/-- Setting a key gives the key a value and leaves the others alone. -/
theorem exists_put_of_set (key : String) (value root : Value) :
    ∃ child, value.set key root = table (root.entries.put key child)
      ∧ (value.IsLeaf → child = value) := by
  cases value with
  | table incoming => exact ⟨_, rfl, fun hleaf => absurd rfl (hleaf incoming)⟩
  | flag _ | integer _ | decimal _ | text _ | list _ => exact ⟨_, rfl, fun _ => rfl⟩

/-- What stands behind a key that was put last. -/
theorem at?_put_self (key : String) (keys : List String) (child : Value) (entries : Entries) :
    (table (entries.put key child)).at? (key :: keys) = child.at? keys := by
  rw [at?, Value.entries, Entries.find?_put, if_pos rfl, Option.bind_some]

/-- What stands behind another key than the one that was put last. -/
theorem at?_put_of_ne (key other : String) (others : List String) (child root : Value) (h : key ≠ other) :
    (table (root.entries.put key child)).at? (other :: others) = root.at? (other :: others) := by
  rw [at?, at?, Value.entries, Entries.find?_put, if_neg h]

/-- The table at a key, or an empty one, has what the root has behind the key. -/
theorem at?_child (key : String) (others : List String) (root : Value) (hothers : others ≠ []) :
    (match root.entries.find? key with
      | some (table entries) => table entries
      | _ => table []).at? others = root.at? (key :: others) := by
  obtain ⟨other, others, rfl⟩ := List.exists_cons_of_ne_nil hothers
  rw [at?.eq_2 root key]
  split
  · next entries hfind => rw [hfind, Option.bind_some]
  -- nothing is behind a key that has no table
  · next hnone =>
      cases hfind : root.entries.find? key with
      | none => rfl
      | some value =>
          cases value with
          | table entries => exact absurd hfind (hnone entries)
          | flag _ | integer _ | decimal _ | text _ | list _ => rfl

/-- **A place has the value that was set there**, if the value is no table. -/
theorem at?_setAt (place : List String) (value root : Value) (hplace : place ≠ []) (hleaf : value.IsLeaf) :
    (setAt place value root).at? place = some value := by
  fun_induction setAt place value root with
  | case1 => exact absurd rfl hplace
  | case2 key value root =>
      obtain ⟨child, hset, hchild⟩ := exists_put_of_set key value root
      rw [hset, hchild hleaf, at?_put_self]
      rfl
  | case3 key keys value root hkeys child ih =>
      rw [at?_put_self]
      exact ih hkeys hleaf

/-- **A place keeps its value** where one is set apart from it. -/
theorem at?_setAt_of_apart (place other : List String) (value root : Value) (h : Apart place other) :
    (setAt place value root).at? other = root.at? other := by
  fun_induction setAt place value root generalizing other with
  | case1 => exact absurd List.nil_prefix h.1
  | case2 key value root =>
      obtain ⟨child, hset, -⟩ := exists_put_of_set key value root
      cases other with
      | nil => exact absurd List.nil_prefix h.2
      | cons k others =>
          have hne : key ≠ k := by
            rintro rfl
            exact h.1 (List.prefix_append [key] others)
          rw [hset, at?_put_of_ne key k others child root hne]
  | case3 key keys value root hkeys child ih =>
      cases other with
      | nil => exact absurd List.nil_prefix h.2
      | cons k others =>
          by_cases hk : key = k
          · subst hk
            have hinside := (apart_cons key keys others).mp h
            have hothers : others ≠ [] := by
              rintro rfl
              exact hinside.2 List.nil_prefix
            rw [at?_put_self, ih others hinside]
            exact at?_child key others root hothers
          · exact at?_put_of_ne key k others _ root hk

end Value

open Value

/-! ## Variables -/

/-- A tree of values with what one variable of an environment chooses. -/
def layVariable (environment : String → Option String) (root : Value) (v : Variable) : Value :=
  match environment v.name with
  | some s => setAt v.place (v.value s) root
  | none => root

/-- The known variables are laid over a tree one after another. -/
theorem layVariables_eq (environment : String → Option String) (root : Value) :
    layVariables environment root = knownVariables.foldl (layVariable environment) root := rfl

/-- The known variables choose values that are no tables, at places apart from one another. -/
theorem knownVariables_apart :
    (∀ v ∈ knownVariables, v.place ≠ [] ∧ ∀ s, (v.value s).IsLeaf)
      ∧ knownVariables.Pairwise fun v w => Apart v.place w.place ∧ Apart w.place v.place := by
  refine ⟨?_, by decide⟩
  intro v hv
  simp only [knownVariables, List.mem_cons, List.not_mem_nil, or_false] at hv
  rcases hv with rfl | rfl | rfl | rfl | rfl | rfl | rfl | rfl <;>
    exact ⟨List.cons_ne_nil _ _, fun s entries => by simp [portValue, flagValue]⟩

section Environment

variable (environment : String → Option String)

/-- A place keeps its value under variables that choose places apart from it. -/
theorem at?_foldl_of_apart (vs : List Variable) (root : Value) (place : List String)
    (h : ∀ v ∈ vs, Apart v.place place) :
    (vs.foldl (layVariable environment) root).at? place = root.at? place := by
  induction vs generalizing root with
  | nil => rfl
  | cons v vs ih =>
      obtain ⟨hv, hvs⟩ := List.forall_mem_cons.mp h
      rw [List.foldl_cons, ih _ hvs, layVariable]
      split
      · exact at?_setAt_of_apart v.place place _ root hv
      · rfl

/-- A variable that is set chooses its place, and one that is not leaves it as it is. -/
theorem at?_foldl (vs : List Variable) (root : Value)
    (hvalues : ∀ v ∈ vs, v.place ≠ [] ∧ ∀ s, (v.value s).IsLeaf)
    (hapart : vs.Pairwise fun v w => Apart v.place w.place ∧ Apart w.place v.place) :
    ∀ v ∈ vs, (vs.foldl (layVariable environment) root).at? v.place
      = ((environment v.name).map v.value).or (root.at? v.place) := by
  induction vs generalizing root with
  | nil => exact fun v hv => absurd hv List.not_mem_nil
  | cons w vs ih =>
      obtain ⟨⟨hplace, hleaf⟩, hvs⟩ := List.forall_mem_cons.mp hvalues
      obtain ⟨hw, hpairs⟩ := List.pairwise_cons.mp hapart
      intro v hv
      rw [List.foldl_cons]
      rcases List.mem_cons.mp hv with rfl | hv
      -- what the first variable chooses is not changed by the others
      · rw [at?_foldl_of_apart environment vs _ v.place fun w hmem => (hw w hmem).2, layVariable]
        cases environment v.name with
        | none => rfl
        | some s => exact at?_setAt v.place (v.value s) root hplace (hleaf s)
      · rw [ih _ hvs hpairs v hv, layVariable]
        cases environment w.name with
        | none => rfl
        | some s => rw [at?_setAt_of_apart w.place v.place _ root (hw v hv).1]

/-- **The environment goes before the file**: a known variable that is set chooses its place, and one that is
not leaves it as it is. -/
theorem at?_layVariables (root : Value) (v : Variable) (hv : v ∈ knownVariables) :
    (layVariables environment root).at? v.place
      = ((environment v.name).map v.value).or (root.at? v.place) := by
  rw [layVariables_eq]
  exact at?_foldl environment knownVariables root knownVariables_apart.1 knownVariables_apart.2 v hv

/-- The environment leaves all other places alone. -/
theorem at?_layVariables_of_apart (root : Value) (place : List String)
    (h : ∀ v ∈ knownVariables, Apart v.place place) :
    (layVariables environment root).at? place = root.at? place := by
  rw [layVariables_eq]
  exact at?_foldl_of_apart environment knownVariables root place h

end Environment

/-! ## Settings of a tree -/

/-- What a tree has at a place of two keys is the field of one of its parts. -/
theorem field?_of_at? (root : Value) (name field : String) (place : Nat) (value : Value)
    (h : root.at? [name, field] = some value) :
    ∃ record, part? root name = some record ∧ record.field? field place = some value := by
  obtain ⟨record, hrecord, hfield⟩ := Option.bind_eq_some_iff.mp h
  obtain ⟨value', hvalue, hsame⟩ := Option.bind_eq_some_iff.mp hfield
  obtain rfl := Option.some.inj hsame
  refine ⟨record, hrecord, ?_⟩
  cases record with
  | table entries => exact hvalue
  | flag _ | integer _ | decimal _ | text _ | list _ => cases hvalue

/-- Settings say what a tree of values has at their places. -/
structure ReadFrom (root : Value) (settings : Settings) : Prop where
  host : ∀ v, root.at? ["server", "host"] = some v → v.toText? = some settings.server.host
  port : ∀ v, root.at? ["server", "port"] = some v → v.toPort? = some settings.server.port
  apiUrl : ∀ v, root.at? ["translation", "api_url"] = some v → v.toText? = some settings.translation.apiUrl
  apiKey : ∀ v, root.at? ["translation", "api_key"] = some v → v.toText? = settings.translation.apiKey
  enabled : ∀ v, root.at? ["translation", "enabled"] = some v →
    v.toFlag? = some settings.translation.enabled
  checksSql : ∀ v, root.at? ["nlp", "validate_sql"] = some v → v.toFlag? = some settings.checksSql
  level : ∀ v, root.at? ["logging", "level"] = some v → v.toText? = some settings.logging.level
  style : ∀ v, root.at? ["logging", "style"] = some v → v.toText? = some settings.logging.style

/-- What is read of a field of a part is read of the value at its place. -/
theorem read_of_at? {α : Type} {read : Value → Option α} {root record v : Value} {name field : String}
    {place : Nat} {x : α} (hrecord : part? root name = some record)
    (hread : (record.field? field place).bind read = some x) (hat : root.at? [name, field] = some v) :
    read v = some x := by
  obtain ⟨record', hrecord', hfield⟩ := field?_of_at? root name field place v hat
  obtain rfl := Option.some.inj (hrecord.symm.trans hrecord')
  rwa [hfield, Option.bind_some] at hread

/-- A text that may be missing is read of the value at its place, if there is one. -/
theorem optionalTextOf?_of_at? {root record v : Value} {name field : String} {place : Nat}
    {x : Option String} (hrecord : part? root name = some record)
    (hread : optionalTextOf? record field place = some x) (hat : root.at? [name, field] = some v) :
    v.toText? = x := by
  obtain ⟨record', hrecord', hfield⟩ := field?_of_at? root name field place v hat
  obtain rfl := Option.some.inj (hrecord.symm.trans hrecord')
  rw [optionalTextOf?, hfield] at hread
  obtain ⟨text, htext, rfl⟩ := Option.map_eq_some_iff.mp hread
  exact htext

/-- Settings that are read say what the tree has. -/
theorem readFrom_of_ofValue? (root : Value) (settings : Settings) (h : ofValue? root = some settings) :
    ReadFrom root settings := by
  unfold ofValue? at h
  obtain ⟨server, hserver, h⟩ := Option.bind_eq_some_iff.mp h
  obtain ⟨host, hhost, h⟩ := Option.bind_eq_some_iff.mp h
  obtain ⟨value, hvalue, h⟩ := Option.bind_eq_some_iff.mp h
  obtain ⟨port, hport, h⟩ := Option.bind_eq_some_iff.mp h
  obtain ⟨translation, htranslation, h⟩ := Option.bind_eq_some_iff.mp h
  obtain ⟨apiUrl, hurl, h⟩ := Option.bind_eq_some_iff.mp h
  obtain ⟨apiKey, hkey, h⟩ := Option.bind_eq_some_iff.mp h
  obtain ⟨enabled, henabled, h⟩ := Option.bind_eq_some_iff.mp h
  obtain ⟨language, hlanguage, h⟩ := Option.bind_eq_some_iff.mp h
  obtain ⟨checksSql, hchecks, h⟩ := Option.bind_eq_some_iff.mp h
  obtain ⟨logging, hlogging, h⟩ := Option.bind_eq_some_iff.mp h
  obtain ⟨level, hlevel, h⟩ := Option.bind_eq_some_iff.mp h
  obtain ⟨style, hstyle, h⟩ := Option.bind_eq_some_iff.mp h
  cases h
  have hport' : (server.field? "port" 1).bind Value.toPort? = some port := by rwa [hvalue]
  exact {
    host := fun _ => read_of_at? hserver hhost
    port := fun _ => read_of_at? hserver hport'
    apiUrl := fun _ => read_of_at? htranslation hurl
    apiKey := fun _ => optionalTextOf?_of_at? htranslation hkey
    enabled := fun _ => read_of_at? htranslation henabled
    checksSql := fun _ => read_of_at? hlanguage hchecks
    level := fun _ => read_of_at? hlogging hlevel
    style := fun _ => read_of_at? hlogging hstyle }

/-! ## Sources -/

section Sources

variable (environment readFile : String → Option String) (settings : Settings)

/-- The entries of the settings file that an environment names; none if it names no file. -/
def IsNamedFile (file : Entries) : Prop :=
  match environment fileVariable with
  | none => file = []
  | some name => ∃ text, readFile name = some text ∧ Toml.ofText? text = some file

/-- **Where settings come from.** A file that is named is there and can be read. The settings are read from a
tree that has what the set variables choose at their places, and everywhere else what the file has over the
defaults. -/
theorem load_eq_some (h : load environment readFile = some settings) :
    ∃ file root, IsNamedFile environment readFile file ∧ ReadFrom root settings
      ∧ (∀ v ∈ knownVariables, root.at? v.place
          = ((environment v.name).map v.value).or ((layFile file defaults).at? v.place))
      ∧ ∀ place, (∀ v ∈ knownVariables, Apart v.place place) →
          root.at? place = (layFile file defaults).at? place := by
  unfold load at h
  have hlaid := fun root =>
    And.intro (at?_layVariables environment root) (at?_layVariables_of_apart environment root)
  cases hname : environment fileVariable with
  | none =>
      rw [hname] at h
      refine ⟨[], _, ?_, readFrom_of_ofValue? _ settings h, hlaid (layFile [] defaults)⟩
      rw [IsNamedFile, hname]
  | some name =>
      rw [hname] at h
      obtain ⟨file, hfile, hsettings⟩ := Option.bind_eq_some_iff.mp h
      refine ⟨file, _, ?_, readFrom_of_ofValue? _ settings hsettings, hlaid (layFile file defaults)⟩
      rw [IsNamedFile, hname]
      exact Option.bind_eq_some_iff.mp hfile

/-- **The settings that the environment chooses**, whatever the settings file has there. -/
theorem load_chosen (h : load environment readFile = some settings) :
    (∀ host, environment "HOST" = some host → settings.server.host = host)
      ∧ (∀ port, environment "PORT" = some port →
          settings.server.port = Fin.ofNat 65536 ((Value.numeral? 65536 port).getD defaultPort))
      ∧ (∀ url, environment "TRANSLATE_API_URL" = some url → settings.translation.apiUrl = url)
      ∧ (∀ key, environment "GOOGLE_API_KEY" = some key → settings.translation.apiKey = some key)
      ∧ (∀ flag, environment "TRANSLATION_ENABLED" = some flag →
          settings.translation.enabled = (flag != "false"))
      ∧ (∀ flag, environment "NLQ_VALIDATE_SQL" = some flag → settings.checksSql = (flag != "false"))
      ∧ (∀ level, environment "RUST_LOG" = some level → settings.logging.level = level)
      ∧ (∀ style, environment "RUST_LOG_STYLE" = some style → settings.logging.style = style) := by
  obtain ⟨file, root, -, hread, hplaces, -⟩ := load_eq_some environment readFile settings h
  have hat : ∀ v ∈ knownVariables, ∀ s, environment v.name = some s →
      root.at? v.place = some (v.value s) := by
    intro v hv s hs
    rw [hplaces v hv, hs]
    rfl
  simp only [knownVariables, List.forall_mem_cons] at hat
  obtain ⟨hhost, hport, hurl, hkey, henabled, hchecks, hlevel, hstyle, -⟩ := hat
  refine ⟨?_, ?_, ?_, ?_, ?_, ?_, ?_, ?_⟩
  · exact fun s hs => (Option.some.inj (hread.host _ (hhost s hs))).symm
  · exact fun s hs => (Option.some.inj (hread.port _ (hport s hs))).symm
  · exact fun s hs => (Option.some.inj (hread.apiUrl _ (hurl s hs))).symm
  · exact fun s hs => (hread.apiKey _ (hkey s hs)).symm
  · exact fun s hs => (Option.some.inj (hread.enabled _ (henabled s hs))).symm
  · exact fun s hs => (Option.some.inj (hread.checksSql _ (hchecks s hs))).symm
  · exact fun s hs => (Option.some.inj (hread.level _ (hlevel s hs))).symm
  · exact fun s hs => (Option.some.inj (hread.style _ (hstyle s hs))).symm

/-- A port that is no number and a part that is no table are overruled by variables. -/
example :
    load
        (fun name =>
          [("NLQ_CONFIG", "nlq.toml"), ("PORT", "80"), ("TRANSLATION_ENABLED", "false"),
            ("TRANSLATE_API_URL", "http://localhost")].lookup name)
        (fun _ => some "translation = 1\n[server]\nport = 'none'\n")
      = some ⟨⟨"0.0.0.0", 80⟩, ⟨"http://localhost", none, false⟩, true, ⟨"info", "auto"⟩⟩ := by
  decide +kernel

end Sources

end TextToSql.Settings
