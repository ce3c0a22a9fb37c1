/-!
# Quoted names and literals

A name or a literal is written between two quotes, and a quote inside it is written twice, so the
written form shows where it ends.

* `undouble_doubled` : reading a doubled text up to the closing quote gives back the text;
* `undouble_length` : what follows the closing quote is shorter than what is read.
-/

namespace TextToSql.Sql

/-- A text with every occurrence of the quote `q` written twice. -/
def doubled (q : Char) : List Char → List Char
  | [] => []
  | c :: rest => if c = q then q :: q :: doubled q rest else c :: doubled q rest

/-- A text between two quotes, with the quotes inside it doubled. -/
def quotedWith (q : Char) (s : String) : String :=
  String.ofList (q :: doubled q s.toList ++ [q])

/-- The written form of an identifier. -/
def quoteIdentifier (name : String) : String := quotedWith '"' name

/-- The written form of a text literal. -/
def quoteLiteral (value : String) : String := quotedWith '\x27' value

/-- Reads a doubled text up to the closing quote: the text and what follows the quote. -/
def undouble (q : Char) : List Char → Option (List Char × List Char)
  | [] => none
  | [c] => if c = q then some ([], []) else none
  | c :: d :: rest =>
      if c = q then
        if d = q then (undouble q rest).map fun (s, after) => (q :: s, after)
        else some ([], d :: rest)
      else (undouble q (d :: rest)).map fun (s, after) => (c :: s, after)

/-- Whether a name can follow `AS` without quotes: an ASCII letter or an underscore, then ASCII
letters, digits and underscores. -/
def isPlainAlias (name : String) : Bool :=
  match name.toList with
  | [] => false
  | c :: rest => (c.isAlpha || c = '_') && rest.all fun d => d.isAlphanum || d = '_'

/-! ## Reading back -/

/-- A doubled text, its closing quote and whatever follows are read back as they were, as long as
no further quote follows at once. -/
theorem undouble_doubled (q : Char) (s after : List Char) (h : after.head? ≠ some q) :
    undouble q (doubled q s ++ q :: after) = some (s, after) := by
  induction s with
  | nil =>
      cases after with
      | nil => simp [doubled, undouble]
      | cons d rest =>
          have hd : d ≠ q := by simpa using h
          simp [doubled, undouble, hd]
  | cons c rest ih =>
      by_cases hc : c = q
      · subst hc
        simp [doubled, undouble, ih]
      · rw [doubled, if_neg hc, List.cons_append]
        cases hrest : doubled q rest ++ q :: after with
        | nil => simp at hrest
        | cons d tail =>
            rw [hrest] at ih
            rw [undouble, if_neg hc, ih]
            rfl

/-- What follows the closing quote is shorter than what is read. -/
theorem undouble_length (q : Char) (s : List Char) (r : List Char × List Char)
    (h : undouble q s = some r) : r.2.length < s.length := by
  fun_induction undouble q s generalizing r with
  | case1 => cases h
  | case2 => cases h; simp
  | case3 => cases h
  | case4 rest ih =>
      obtain ⟨p, hp, rfl⟩ := Option.map_eq_some_iff.mp h
      have := ih p hp
      simp only [List.length_cons]
      omega
  | case5 => cases h; simp
  | case6 c d rest _ ih =>
      obtain ⟨p, hp, rfl⟩ := Option.map_eq_some_iff.mp h
      have := ih p hp
      simp only [List.length_cons] at this ⊢
      omega

end TextToSql.Sql
