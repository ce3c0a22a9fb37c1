import TextToSql.Unicode.White

/-!
# Texts as lists of characters

The operations on texts that the rest of the library shares: splitting into words at white space,
trimming, and looking for one text inside another.

* `words_white_free` : no word contains white space;
* `firstIndex?_isSome_iff` : the search succeeds exactly when the text holds the needle.
-/

namespace TextToSql.Text

open Unicode

/-! ## Words -/

/-- The pieces of a text between its white-space characters, empty pieces included. -/
def splitWhite : List Char → List (List Char)
  | [] => [[]]
  | c :: rest =>
      match splitWhite rest with
      | [] => [[c]]
      | piece :: pieces => if isWhite c then [] :: piece :: pieces else (c :: piece) :: pieces

/-- The words of a text: its maximal runs without white space. -/
def words (s : List Char) : List (List Char) := (splitWhite s).filter (!·.isEmpty)

/-- The words of a string. -/
def wordsOf (s : String) : List String := (words s.toList).map String.ofList

/-- There is always at least one piece, be it empty. -/
theorem splitWhite_ne_nil (s : List Char) : splitWhite s ≠ [] := by
  cases s with
  | nil => simp [splitWhite]
  | cons c rest =>
      rw [splitWhite]
      split
      · simp
      · split <;> simp

/-- A piece between white-space characters contains none. -/
theorem splitWhite_white_free (s w : List Char) (hw : w ∈ splitWhite s) (c : Char) (hc : c ∈ w) :
    isWhite c = false := by
  induction s generalizing w with
  | nil =>
      rw [splitWhite, List.mem_singleton] at hw
      subst hw
      cases hc
  | cons d rest ih =>
      rw [splitWhite] at hw
      split at hw
      · next heq => exact absurd heq (splitWhite_ne_nil rest)
      · next piece pieces heq =>
          split at hw
          · rcases List.mem_cons.mp hw with rfl | hmem
            · cases hc
            · exact ih w (heq ▸ hmem) hc
          · next hd =>
            rcases List.mem_cons.mp hw with rfl | hmem
            · rcases List.mem_cons.mp hc with rfl | hc'
              · simpa using hd
              · exact ih piece (heq ▸ List.mem_cons_self) hc'
            · exact ih w (heq ▸ List.mem_cons_of_mem _ hmem) hc

/-- No word contains white space. -/
theorem words_white_free (s w : List Char) (hw : w ∈ words s) (c : Char) (hc : c ∈ w) :
    isWhite c = false :=
  splitWhite_white_free s w (List.mem_filter.mp hw).1 c hc

/-- No word is empty. -/
theorem words_ne_nil (s w : List Char) (hw : w ∈ words s) : w ≠ [] := by
  have h := (List.mem_filter.mp hw).2
  intro hnil
  simp [hnil] at h

/-! ## Trimming -/

/-- A text without white space at either end. -/
def trim (s : String) : String :=
  String.ofList ((s.toList.dropWhile isWhite).reverse.dropWhile isWhite).reverse

/-- Whether a text has nothing but white space. -/
def isBlank (s : String) : Bool := s.toList.all isWhite

/-! ## Looking for a text inside another -/

/-- The number of characters before the first place where `needle` occurs. -/
def firstIndex? (needle : List Char) : List Char → Option Nat
  | [] => if needle.isEmpty then some 0 else none
  | c :: rest =>
      if needle.isPrefixOf (c :: rest) then some 0 else (firstIndex? needle rest).map (· + 1)

/-- Whether `needle` occurs somewhere in `s`. -/
def holds (s needle : String) : Bool := (firstIndex? needle.toList s.toList).isSome

/-- The search for a text succeeds exactly when the text occurs. -/
theorem firstIndex?_isSome_iff (needle s : List Char) :
    (firstIndex? needle s).isSome ↔ needle <:+: s := by
  induction s with
  | nil => cases needle <;> simp [firstIndex?]
  | cons c rest ih =>
      rw [firstIndex?, List.infix_cons_iff]
      by_cases hp : needle <+: c :: rest
      · simp [hp]
      · simp [hp, ih]

/-- A text holds another exactly when the other occurs in it as a contiguous part. -/
theorem holds_iff (s needle : String) : holds s needle ↔ needle.toList <:+: s.toList :=
  firstIndex?_isSome_iff needle.toList s.toList

end TextToSql.Text
