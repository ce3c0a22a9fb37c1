import TextToSql.Proofs.Sql.Scanning

/-!
# Texts that end their tokens

A fragment of SQL is written into a statement as it is. It keeps its tokens there if what stands behind it
ends the last one, unless it ends in the middle of a comment that goes on to the end of its line: such a
comment takes in whatever is written behind the fragment.

* `first?_eq_read` : what stands at the start of a text is of one kind and read as that kind is;
* `Kind.ofStart_append` : its kind is the same with more text behind;
* `first?_append` : so is the token;
* `scans_of_closed` : a fragment that does not end in a comment gives its tokens before any text that ends
  them.
-/

namespace TextToSql.Sql.Token

/-! ## Parts of a longer text -/

/-- A comment that is closed in a text is closed in a longer one. -/
theorem afterComment?_append (depth : Nat) (s rest after : List Char) (h : afterComment? depth s = some after) :
    afterComment? depth (s ++ rest) = some (after ++ rest) := by
  fun_induction afterComment? depth s with
  | case1 => cases h
  | case2 depth s ih => exact ih h
  | case3 s => cases h; rfl
  | case4 depth s ih => exact ih h
  | case5 depth c s hopen hclose hclose' ih =>
      cases s with
      | nil => cases h
      | cons d s =>
          rw [List.cons_append, List.cons_append, afterComment?]
          · exact ih h
          · rintro rest' rfl heq
            obtain ⟨rfl, rfl⟩ := List.cons.inj heq
            exact hopen s rfl rfl
          · rintro rest' rfl rfl heq
            obtain ⟨rfl, rfl⟩ := List.cons.inj heq
            exact hclose s rfl rfl rfl
          · rintro depth' rest' rfl rfl heq
            obtain ⟨rfl, rfl⟩ := List.cons.inj heq
            exact hclose' depth' s rfl rfl rfl

/-- A quoted text is read up to its closing quote from a longer text too. -/
theorem undouble_append (q : Char) (s rest : List Char) (r : List Char × List Char)
    (hrest : rest.head? ≠ some q) (h : undouble q s = some r) :
    undouble q (s ++ rest) = some (r.1, r.2 ++ rest) := by
  fun_induction undouble q s generalizing r with
  | case1 => cases h
  | case2 =>
      cases h
      cases rest with
      | nil => simp [undouble]
      | cons d rest =>
          have hd : d ≠ q := by simpa using hrest
          simp [undouble, hd]
  | case3 => cases h
  | case4 s ih =>
      obtain ⟨p, hp, rfl⟩ := Option.map_eq_some_iff.mp h
      simp [undouble, ih p hp]
  | case5 d s hd =>
      cases h
      simp [undouble, hd]
  | case6 c d s hc ih =>
      obtain ⟨p, hp, rfl⟩ := Option.map_eq_some_iff.mp h
      have hread := ih p hp
      rw [List.cons_append] at hread
      simp [undouble, hc, hread]

variable {rest : List Char}

/-- No character of a class without closing characters stands where a text is clear. -/
theorem Clear.head?_eq_false (h : Clear rest) (p : Char → Bool)
    (hp : p ' ' = false ∧ p ',' = false ∧ p ')' = false) : ∀ c ∈ rest.head?, p c = false := by
  refine h.not_mem p ?_
  intro c hc
  rcases (closes_iff c).mp hc with rfl | rfl | rfl
  · exact hp.1
  · exact hp.2.1
  · exact hp.2.2

/-- An exponent ends where the text is clear. -/
theorem exponent_append (s : List Char) (hrest : Clear rest) :
    exponent (s ++ rest) = ((exponent s).1, (exponent s).2 ++ rest) := by
  cases s with
  | nil =>
      cases rest with
      | nil => rfl
      | cons c rest =>
          have hne : c ≠ 'e' ∧ c ≠ 'E' := by
            rcases (closes_iff c).mp (hrest.closes_of_mem c rfl) with rfl | rfl | rfl <;> decide
          simp [exponent, hne.1, hne.2]
  | cons e s =>
      have hsign : ((s ++ rest).take 1).filter (fun c => c = '+' || c = '-')
          = (s.take 1).filter fun c => c = '+' || c = '-' := by
        cases s with
        | nil =>
            cases rest with
            | nil => rfl
            | cons c rest =>
                rcases (closes_iff c).mp (hrest.closes_of_mem c rfl) with rfl | rfl | rfl <;> rfl
        | cons c s => rfl
      have hdrop : (s ++ rest).drop ((s.take 1).filter fun c => c = '+' || c = '-').length
          = s.drop ((s.take 1).filter fun c => c = '+' || c = '-').length ++ rest := by
        refine List.drop_append_of_le_length ?_
        exact (List.length_filter_le _ _).trans (List.length_take_le' 1 s)
      have hdigits := hrest.head?_eq_false Char.isDigit ⟨rfl, rfl, rfl⟩
      obtain ⟨htake, hafter⟩ := Text.takeWhile_append Char.isDigit
        (s.drop ((s.take 1).filter fun c => c = '+' || c = '-').length) rest (.inr hdigits)
      rw [List.cons_append, exponent, exponent]
      rw [hsign, hdrop, htake, hafter]
      split <;> rfl

/-- The digits behind a point end where the text is clear. -/
theorem fraction_append (s : List Char) (hrest : Clear rest) :
    fraction (s ++ rest) = ((fraction s).1, (fraction s).2 ++ rest) := by
  have hdigits := hrest.head?_eq_false Char.isDigit ⟨rfl, rfl, rfl⟩
  have hpoint := hrest.head?_eq_false (fun c => c = '.') ⟨rfl, rfl, rfl⟩
  cases s with
  | nil =>
      cases rest with
      | nil => rfl
      | cons c rest =>
          have hc : c ≠ '.' := by simpa using hpoint c rfl
          simp [fraction, hc]
  | cons c s =>
      obtain ⟨htake, hdrop⟩ := Text.takeWhile_append Char.isDigit s rest (.inr hdigits)
      by_cases hc : c = '.'
      · subst hc
        simp [fraction, htake, hdrop]
      · simp [fraction, hc]

/-- A number ends where the text is clear. -/
theorem numberAt_append_clear (s : List Char) (hrest : Clear rest) :
    numberAt (s ++ rest) = ((numberAt s).1, (numberAt s).2 ++ rest) := by
  have hdigits := hrest.head?_eq_false Char.isDigit ⟨rfl, rfl, rfl⟩
  obtain ⟨htake, hdrop⟩ := Text.takeWhile_append Char.isDigit s rest (.inr hdigits)
  simp only [numberAt, htake, hdrop, fraction_append _ hrest, exponent_append _ hrest]

/-- A symbol of two characters does not reach into a clear text. -/
theorem symbolAt_append (c : Char) (s : List Char) (hrest : Clear rest) :
    symbolAt c (s ++ rest) = ((symbolAt c s).1, (symbolAt c s).2 ++ rest) := by
  cases s with
  | nil =>
      cases rest with
      | nil => rfl
      | cons d rest =>
          have hlong : longSymbols.contains (c, d) = false := by
            rcases (closes_iff d).mp (hrest.closes_of_mem d rfl) with rfl | rfl | rfl <;> simp [longSymbols]
          rw [List.nil_append, symbolAt, hlong]
          rfl
  | cons d s =>
      rw [List.cons_append, symbolAt, symbolAt]
      split <;> rfl

/-! ## Kinds of tokens -/

/-- The kinds of tokens and separators: white space, the two kinds of comments, and the tokens; a number can
start at its point. -/
inductive Kind where
  | space
  | line
  | block
  | name
  | text
  | number
  | fraction
  | word
  | symbol

/-- The kind of what a character starts, by the character behind it. -/
def Kind.ofStart (c : Char) (next? : Option Char) : Kind :=
  if isSpace c then .space
  else if c = '-' && next? = some '-' then .line
  else if c = '/' && next? = some '*' then .block
  else if c = '"' then .name
  else if c = '\'' then .text
  else if c.isDigit then .number
  else if c = '.' && next?.any Char.isDigit then .fraction
  else if startsWord c then .word
  else .symbol

/-- The token of a kind behind its first character, or nothing for a separator, and what follows. -/
def Kind.read (c : Char) (s : List Char) : Kind → Option (Option Token × List Char)
  | .space => some (none, s)
  | .line => some (none, s.dropWhile (· ≠ '\n'))
  | .block => (afterComment? 0 s.tail).map (none, ·)
  | .name => (undouble '"' s).map fun (quoted, after) => (some (.name (String.ofList quoted)), after)
  | .text => (undouble '\'' s).map fun (quoted, after) => (some (.text (String.ofList quoted)), after)
  | .number => some (some (.number (String.ofList (c :: (numberAt s).1))), (numberAt s).2)
  | .fraction =>
      let power := exponent (s.dropWhile Char.isDigit)
      some (some (.number (String.ofList (c :: s.takeWhile Char.isDigit ++ power.1))), power.2)
  | .word => some (some (.word (String.ofList (c :: s.takeWhile inWord))), s.dropWhile inWord)
  | .symbol => some (some (symbolAt c s).1, (symbolAt c s).2)

/-- What stands at the start of a text is read as its kind says. -/
theorem first?_eq_read (c : Char) (s : List Char) : first? c s = (Kind.ofStart c s.head?).read c s := by
  unfold first? Kind.ofStart
  split_ifs with hspace hline hblock hname htext
  · rfl
  · rfl
  · rfl
  · subst hname
    rfl
  · subst htext
    rfl
  all_goals rfl

/-- The kind of a token is the same with a clear text behind it. -/
theorem Kind.ofStart_append (c : Char) (s : List Char) (hrest : Clear rest) :
    Kind.ofStart c (s ++ rest).head? = Kind.ofStart c s.head? := by
  cases s with
  | cons d s => rfl
  | nil =>
      cases rest with
      | nil => rfl
      | cons d rest =>
          rcases (closes_iff d).mp (hrest.closes_of_mem d rfl) with rfl | rfl | rfl <;>
            simp [Kind.ofStart]

variable {c : Char} {s after : List Char} {t : Option Token}

/-- A comment to the end of the line ends at the line break of the text. -/
theorem Kind.read_line_append (hbreak : '\n' ∈ s) (h : Kind.line.read c s = some (t, after)) :
    Kind.line.read c (s ++ rest) = some (t, after ++ rest) := by
  obtain ⟨-, hdrop⟩ := Text.takeWhile_append (fun c => c ≠ '\n') s rest (.inl ⟨'\n', hbreak, by simp⟩)
  rw [read, hdrop]
  cases h
  rfl

/-- A closed comment is closed in a longer text. -/
theorem Kind.read_block_append (h : Kind.block.read c s = some (t, after)) :
    Kind.block.read c (s ++ rest) = some (t, after ++ rest) := by
  obtain ⟨after', hafter, heq⟩ := Option.map_eq_some_iff.mp h
  obtain ⟨rfl, rfl⟩ := Prod.mk.inj heq
  have htail : (s ++ rest).tail = s.tail ++ rest := by
    refine List.tail_append_of_ne_nil ?_
    rintro rfl
    simp [afterComment?] at hafter
  rw [read, htail, afterComment?_append 0 s.tail rest after' hafter]
  rfl

/-- What is made of a quoted text is the same where more stands behind its closing quote. -/
theorem map_undouble_append (q : Char) (make : List Char → Option Token) (hq : closes q = false)
    (hrest : Clear rest)
    (h : (undouble q s).map (fun (quoted, after) => (make quoted, after)) = some (t, after)) :
    (undouble q (s ++ rest)).map (fun (quoted, after) => (make quoted, after)) = some (t, after ++ rest) := by
  obtain ⟨r, hr, heq⟩ := Option.map_eq_some_iff.mp h
  obtain ⟨rfl, rfl⟩ := Prod.mk.inj heq
  rw [undouble_append q s rest r (hrest.head?_ne q hq) hr]
  rfl

/-- A quoted name ends at its closing quote. -/
theorem Kind.read_name_append (hrest : Clear rest) (h : Kind.name.read c s = some (t, after)) :
    Kind.name.read c (s ++ rest) = some (t, after ++ rest) :=
  map_undouble_append '"' (fun quoted => some (.name (String.ofList quoted))) rfl hrest h

/-- A quoted text ends at its closing quote. -/
theorem Kind.read_text_append (hrest : Clear rest) (h : Kind.text.read c s = some (t, after)) :
    Kind.text.read c (s ++ rest) = some (t, after ++ rest) :=
  map_undouble_append '\'' (fun quoted => some (.text (String.ofList quoted))) rfl hrest h

/-- A number ends where the text is clear. -/
theorem Kind.read_number_append (hrest : Clear rest) (h : Kind.number.read c s = some (t, after)) :
    Kind.number.read c (s ++ rest) = some (t, after ++ rest) := by
  cases h
  rw [read, numberAt_append_clear s hrest]

/-- A number that starts at its point ends where the text is clear. -/
theorem Kind.read_fraction_append (hrest : Clear rest) (h : Kind.fraction.read c s = some (t, after)) :
    Kind.fraction.read c (s ++ rest) = some (t, after ++ rest) := by
  have hdigits := hrest.head?_eq_false Char.isDigit ⟨rfl, rfl, rfl⟩
  obtain ⟨htake, hdrop⟩ := Text.takeWhile_append Char.isDigit s rest (.inr hdigits)
  cases h
  rw [read, htake, hdrop, exponent_append _ hrest]

/-- A word ends where the text is clear. -/
theorem Kind.read_word_append (hrest : Clear rest) (h : Kind.word.read c s = some (t, after)) :
    Kind.word.read c (s ++ rest) = some (t, after ++ rest) := by
  have hwords := hrest.head?_eq_false inWord ⟨rfl, rfl, rfl⟩
  obtain ⟨htake, hdrop⟩ := Text.takeWhile_append inWord s rest (.inr hwords)
  cases h
  rw [read, htake, hdrop]

/-- A symbol ends where the text is clear. -/
theorem Kind.read_symbol_append (hrest : Clear rest) (h : Kind.symbol.read c s = some (t, after)) :
    Kind.symbol.read c (s ++ rest) = some (t, after ++ rest) := by
  cases h
  rw [read, symbolAt_append c s hrest]

/-! ## Tokens of a longer text -/

/-- A comment to the end of the line goes on to the end of a text. -/
def InComment (c : Char) (s : List Char) : Prop := c = '-' ∧ s.head? = some '-' ∧ '\n' ∉ s

/-- A comment to the end of the line starts with two dashes. -/
theorem Kind.dashes_of_ofStart_eq_line (next? : Option Char) (h : Kind.ofStart c next? = .line) :
    c = '-' ∧ next? = some '-' := by
  unfold Kind.ofStart at h
  split_ifs at h with _ hline
  simpa using hline

/-- **A token at the start of a text** is read as it is with more text behind, but for a comment that goes
on to the end of the text. -/
theorem first?_append (c : Char) (s : List Char) (t : Option Token) (after : List Char)
    (hrest : Clear rest) (hcomment : ¬ InComment c s) (h : first? c s = some (t, after)) :
    first? c (s ++ rest) = some (t, after ++ rest) := by
  rw [first?_eq_read] at h ⊢
  rw [Kind.ofStart_append c s hrest]
  cases hkind : Kind.ofStart c s.head? <;> rw [hkind] at h
  case space => cases h; rfl
  case line =>
    obtain ⟨hc, hhead⟩ := Kind.dashes_of_ofStart_eq_line s.head? hkind
    have hbreak : '\n' ∈ s := by
      by_contra hbreak
      exact hcomment ⟨hc, hhead, hbreak⟩
    exact Kind.read_line_append hbreak h
  case block => exact Kind.read_block_append h
  case name => exact Kind.read_name_append hrest h
  case text => exact Kind.read_text_append hrest h
  case number => exact Kind.read_number_append hrest h
  case fraction => exact Kind.read_fraction_append hrest h
  case word => exact Kind.read_word_append hrest h
  case symbol => exact Kind.read_symbol_append hrest h

/-! ## Fragments -/

/-- A text that does not end in the middle of a comment: what is written behind it is read. -/
def Closed (s : String) : Prop := ofText? (s ++ " AND") = (ofText? s).map (· ++ [.word "AND"])

instance (s : String) : Decidable (Closed s) :=
  inferInstanceAs (Decidable (ofText? (s ++ " AND") = (ofText? s).map (· ++ [.word "AND"])))

/-- A text whose first token is not closed has no tokens. -/
theorem scan_of_first?_none (c : Char) (s : List Char) (h : first? c s = none) : scan (c :: s) = none := by
  rw [scan.eq_def]
  dsimp only
  split
  · rfl
  · next heq => rw [h] at heq; cases heq

/-- A piece that gives its tokens before any text that ends them is closed. -/
theorem Scans.closed {s : String} {ts : List Token} (h : Scans s ts) : Closed s := by
  have hand : scan " AND".toList = some [.word "AND"] := by decide +kernel
  rw [Closed, h.ofText?_eq, ofText?, String.toList_append, h " AND".toList rfl, hand]
  rfl

/-- A comment to the end of the line takes in what is written behind it. -/
theorem scan_inComment (c : Char) (s rest : List Char) (h : InComment c s) (hrest : '\n' ∉ rest) :
    scan (c :: (s ++ rest)) = some [] := by
  obtain ⟨rfl, hhead, hbreak⟩ := h
  obtain ⟨s, rfl⟩ := List.head?_eq_some_iff.mp hhead
  have hdrop : (('-' :: s) ++ rest).dropWhile (· ≠ '\n') = [] := by
    rw [List.dropWhile_eq_nil_iff]
    intro d hd
    rcases List.mem_append.mp hd with hd | hd
    · simpa using fun heq : d = '\n' => hbreak (heq ▸ hd)
    · simpa using fun heq : d = '\n' => hrest (heq ▸ hd)
  have hfirst : first? '-' (('-' :: s) ++ rest) = some (none, []) := by
    rw [← hdrop]
    rfl
  rw [scan_of_first? _ _ _ _ hfirst, scan_nil]
  rfl

/-- The tokens of a closed text, before any text that ends them. -/
theorem scan_append_of_closed (s rest : List Char) (ts : List Token) (hrest : Clear rest)
    (h : scan s = some ts) (hclosed : scan (s ++ " AND".toList) = some (ts ++ [.word "AND"])) :
    scan (s ++ rest) = (scan rest).map (ts ++ ·) := by
  -- on the length of the text: what stands behind its first token is shorter
  induction hlength : s.length using Nat.strong_induction_on generalizing s ts with
  | _ n ih =>
      cases s with
      | nil =>
          rw [scan_nil] at h
          cases h
          simp
      | cons c s =>
          cases hfirst : first? c s with
          | none => rw [scan_of_first?_none c s hfirst] at h; cases h
          | some r =>
              obtain ⟨t, after⟩ := r
              have hin : ¬ InComment c s := by
                intro hin
                rw [List.cons_append, scan_inComment c s _ hin (by decide)] at hclosed
                exact List.append_ne_nil_of_right_ne_nil ts (by simp) (Option.some.inj hclosed).symm
              have hand : Clear " AND".toList := rfl
              rw [scan_of_first? c s t after hfirst] at h
              obtain ⟨us, hafter, rfl⟩ := Option.map_eq_some_iff.mp h
              rw [List.cons_append, scan_of_first? c _ t _ (first?_append c s t after hand hin hfirst)]
                at hclosed
              obtain ⟨vs, hvs, heq⟩ := Option.map_eq_some_iff.mp hclosed
              rw [List.append_assoc] at heq
              obtain rfl := List.append_cancel_left heq
              have hshort : after.length < n := by
                have hle : after.length ≤ s.length := first?_length c s _ hfirst
                simp only [List.length_cons] at hlength
                omega
              rw [List.cons_append, scan_of_first? c _ t _ (first?_append c s t after hrest hin hfirst),
                ih after.length hshort after us hafter hvs rfl]
              exact map_append_map t.toList us (scan rest)

/-- **A closed fragment** keeps its tokens before any text that ends them. -/
theorem scans_of_closed (sql : String) (ts : List Token) (h : ofText? sql = some ts) (hclosed : Closed sql) :
    Scans sql ts := by
  intro rest hrest
  refine scan_append_of_closed sql.toList rest ts hrest h ?_
  rw [Closed, h, ofText?, String.toList_append] at hclosed
  exact hclosed

end TextToSql.Sql.Token
