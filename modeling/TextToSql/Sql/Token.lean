import TextToSql.Sql.Quoted
import TextToSql.Unicode.White

/-!
# Tokens of SQL

The words, quoted names, literals and symbols that an SQL text is made of. Comments and white space
separate tokens and are dropped.

* `first?_length` : reading a token or a separator leaves less to read.
-/

namespace TextToSql.Sql

/-- A token: a word as it stands in the text, a quoted name, a text literal, a number or a symbol. -/
inductive Token where
  | word (s : String)
  | name (s : String)
  | text (s : String)
  | number (s : String)
  | symbol (s : String)
deriving DecidableEq

namespace Token

/-! ## Characters -/

/-- Whether a character separates tokens; outside ASCII there are no separators. -/
def isSpace (c : Char) : Bool := Unicode.isWhite c && c.toNat < 0x80

/-- Whether a character can start a word: a letter of ASCII, an underscore, or anything outside
ASCII. -/
def startsWord (c : Char) : Bool := c.isAlpha || c = '_' || 0x80 ≤ c.toNat

/-- Whether a character can go on in a word. -/
def inWord (c : Char) : Bool := startsWord c || c.isDigit || c = '$'

/-- The symbols of two characters. -/
def longSymbols : List (Char × Char) :=
  [(':', ':'), ('<', '>'), ('!', '='), ('<', '='), ('>', '='), ('=', '='), ('|', '|')]

/-! ## Parts of a text -/

/-- What follows a comment, at the given depth of comments inside comments. -/
def afterComment? : Nat → List Char → Option (List Char)
  | _, [] => none
  | depth, '/' :: '*' :: rest => afterComment? (depth + 1) rest
  | 0, '*' :: '/' :: rest => some rest
  | depth + 1, '*' :: '/' :: rest => afterComment? depth rest
  | depth, _ :: rest => afterComment? depth rest

/-- A sign and digits of an exponent, and what follows; nothing if there are no digits. -/
def exponent (s : List Char) : List Char × List Char :=
  match s with
  | e :: rest =>
      let sign := (rest.take 1).filter fun c => c = '+' || c = '-'
      let digits := (rest.drop sign.length).takeWhile Char.isDigit
      if (e = 'e' || e = 'E') && !digits.isEmpty then
        (e :: sign ++ digits, (rest.drop sign.length).dropWhile Char.isDigit)
      else ([], s)
  | [] => ([], [])

/-- A point and the digits behind it, and what follows. -/
def fraction (s : List Char) : List Char × List Char :=
  match s with
  | '.' :: rest => ('.' :: rest.takeWhile Char.isDigit, rest.dropWhile Char.isDigit)
  | _ => ([], s)

/-- A number at the start of a text, and what follows. -/
def numberAt (s : List Char) : List Char × List Char :=
  let decimals := fraction (s.dropWhile Char.isDigit)
  let power := exponent decimals.2
  (s.takeWhile Char.isDigit ++ decimals.1 ++ power.1, power.2)

/-- A symbol that starts with the given character, and what follows. -/
def symbolAt (c : Char) (rest : List Char) : Token × List Char :=
  match rest with
  | d :: after =>
      if longSymbols.contains (c, d) then (symbol (String.ofList [c, d]), after)
      else (symbol (String.singleton c), rest)
  | [] => (symbol (String.singleton c), [])

/-! ## Reading -/

/-- The token that starts with the given character, or nothing for a separator, and what follows;
none if a quote or a comment is not closed. -/
def first? (c : Char) (rest : List Char) : Option (Option Token × List Char) :=
  if isSpace c then some (none, rest)
  else if c = '-' && rest.head? = some '-' then some (none, rest.dropWhile (· ≠ '\n'))
  else if c = '/' && rest.head? = some '*' then (afterComment? 0 rest.tail).map (none, ·)
  else if c = '"' then (undouble c rest).map fun (s, after) => (some (name (String.ofList s)), after)
  else if c = '\'' then (undouble c rest).map fun (s, after) => (some (text (String.ofList s)), after)
  else if c.isDigit then
    let (digits, after) := numberAt rest
    some (some (number (String.ofList (c :: digits))), after)
  else if c = '.' && rest.head?.any Char.isDigit then
    let power := exponent (rest.dropWhile Char.isDigit)
    some (some (number (String.ofList (c :: rest.takeWhile Char.isDigit ++ power.1))), power.2)
  else if startsWord c then
    some (some (word (String.ofList (c :: rest.takeWhile inWord))), rest.dropWhile inWord)
  else
    let (token, after) := symbolAt c rest
    some (some token, after)

/-- A text is not longer without its first characters. -/
theorem dropWhile_length (p : Char → Bool) (s : List Char) : (s.dropWhile p).length ≤ s.length :=
  (List.dropWhile_sublist p).length_le

/-- What follows a comment is not longer than the comment with it. -/
theorem afterComment?_length (depth : Nat) (s after : List Char)
    (h : afterComment? depth s = some after) : after.length ≤ s.length := by
  fun_induction afterComment? depth s with
  | case1 => cases h
  | case2 _ _ ih => have := ih h; simp only [List.length_cons]; omega
  | case3 => cases h; simp only [List.length_cons]; omega
  | case4 _ _ ih => have := ih h; simp only [List.length_cons]; omega
  | case5 _ _ _ _ _ _ ih => have := ih h; simp only [List.length_cons]; omega

/-- What follows an exponent is not longer than the text with it. -/
theorem exponent_length (s : List Char) : (exponent s).2.length ≤ s.length := by
  unfold exponent
  split
  · next e rest =>
      dsimp only
      split
      · have := dropWhile_length Char.isDigit
          (rest.drop ((rest.take 1).filter fun c => c = '+' || c = '-').length)
        simp only [List.length_drop, List.length_cons] at this ⊢
        omega
      · exact Nat.le_refl _
  · exact Nat.le_refl _

/-- What follows a fraction is not longer than the text with it. -/
theorem fraction_length (s : List Char) : (fraction s).2.length ≤ s.length := by
  unfold fraction
  split
  · next rest =>
      have := dropWhile_length Char.isDigit rest
      simp only [List.length_cons]
      omega
  · exact Nat.le_refl _

/-- What follows a number is not longer than the text with it. -/
theorem numberAt_length (s : List Char) : (numberAt s).2.length ≤ s.length :=
  Nat.le_trans (exponent_length _) (Nat.le_trans (fraction_length _) (dropWhile_length _ s))

/-- What follows a symbol is not longer than the text behind its first character. -/
theorem symbolAt_length (c : Char) (rest : List Char) :
    (symbolAt c rest).2.length ≤ rest.length := by
  unfold symbolAt
  split
  · split <;> simp
  · exact Nat.le_refl _

/-- Reading a token or a separator leaves less to read. -/
theorem first?_length (c : Char) (rest : List Char) (r : Option Token × List Char)
    (h : first? c rest = some r) : r.2.length ≤ rest.length := by
  rw [first?] at h
  split at h
  · cases h; exact Nat.le_refl _
  split at h
  · cases h; exact dropWhile_length _ rest
  split at h
  · obtain ⟨after, ha, rfl⟩ := Option.map_eq_some_iff.mp h
    have := afterComment?_length 0 rest.tail after ha
    rw [List.length_tail] at this
    exact Nat.le_trans this (Nat.sub_le _ _)
  split at h
  · obtain ⟨p, hp, rfl⟩ := Option.map_eq_some_iff.mp h
    exact Nat.le_of_lt (undouble_length c rest p hp)
  split at h
  · obtain ⟨p, hp, rfl⟩ := Option.map_eq_some_iff.mp h
    exact Nat.le_of_lt (undouble_length c rest p hp)
  split at h
  · cases h; exact numberAt_length rest
  split at h
  · cases h; exact Nat.le_trans (exponent_length _) (dropWhile_length _ rest)
  split at h
  · cases h; exact dropWhile_length _ rest
  · cases h; exact symbolAt_length c rest

/-- The tokens of a text; none if a quote or a comment is not closed. -/
def scan : List Char → Option (List Token)
  | [] => some []
  | c :: rest =>
      match h : first? c rest with
      | none => none
      | some (token, after) =>
          have : after.length ≤ rest.length := first?_length c rest _ h
          (scan after).map (token.toList ++ ·)
termination_by s => s.length

/-- The tokens of a string. -/
def ofText? (sql : String) : Option (List Token) := scan sql.toList

end Token

end TextToSql.Sql
