import TextToSql.Unicode.WordChar
import TextToSql.Unicode.White
import TextToSql.Unicode.CaseFold

/-!
# Patterns

The language in which the cue phrases of a question are described. A pattern is tried at a place of
a text, given by the character before it and the characters from it on, and yields its runs: the ways
in which it can match there, the preferred one first.

Letters match in any case. A repetition of a character class is always taken as far as it goes; so a
number or a word that a pattern captures is complete to its right.

* `taken_append_rest` : a run takes the beginning of the text and leaves the rest;
* `runs_append_assoc` : a sequence of three patterns can be grouped either way.
-/

namespace TextToSql

open Unicode

/-- The classes of characters that a pattern repeats. -/
inductive CharClass where
  | word
  | digit
  | space
  | dotted
deriving DecidableEq

/-- Whether a character belongs to a class; the class `dotted` has the word characters, the point
and the hyphen. -/
def CharClass.contains : CharClass → Char → Bool
  | word, c => isWordChar c
  | digit, c => isDecimalDigit c
  | space, c => isWhite c
  | dotted, c => isWordChar c || c = '.' || c = '-'

/-- A pattern. -/
inductive Pattern where
  | empty
  | literal (text : List Char)
  | run (cls : CharClass)
  | boundary
  | seq (first second : Pattern)
  | alt (first second : Pattern)
  | capture (inner : Pattern)

namespace Pattern

/-! ## Writing patterns -/

instance : Append Pattern := ⟨seq⟩

/-- A text, in any letter case. -/
def lit (s : String) : Pattern := .literal s.toList

/-- A word: one or more word characters. -/
def word : Pattern := .run .word

/-- An integer: one or more decimal digits. -/
def digits : Pattern := .run .digit

/-- White space: one or more characters of it. -/
def spaces : Pattern := .run .space

/-- A pattern that may be left out. -/
def optional (p : Pattern) : Pattern := .alt p .empty

/-- The first of several patterns that matches; nothing at all if there are none. -/
def firstOf : List Pattern → Pattern
  | [] => .empty
  | [p] => p
  | p :: q :: ps => .alt p (firstOf (q :: ps))

/-- The first of several texts that matches. -/
def oneOf (texts : List String) : Pattern := firstOf (texts.map lit)

/-- A pattern between word boundaries. -/
def whole (p : Pattern) : Pattern := boundary ++ p ++ boundary

/-- A number: an integer that may have a decimal part. -/
def numeral : Pattern := digits ++ optional (lit "." ++ digits)

/-! ## Trying a pattern at a place -/

/-- A way in which a pattern matches at a place: the characters taken, those left, and the captured
parts in the order in which they stand in the pattern. -/
structure Run where
  taken : List Char
  rest : List Char
  captures : List (List Char)

/-- A run followed by another one on what it left. -/
def Run.followedBy (r r' : Run) : Run := ⟨r.taken ++ r'.taken, r'.rest, r.captures ++ r'.captures⟩

/-- A run whose taken characters are captured. -/
def Run.captured (r : Run) : Run := ⟨r.taken, r.rest, r.taken :: r.captures⟩

/-- Whether there is a word boundary between two neighbouring characters, where no character stands
for an end of the text. -/
def isBoundary (before after : Option Char) : Bool := before.any isWordChar != after.any isWordChar

/-- The character before a place that lies some characters further on. -/
def lastOf (before : Option Char) (taken : List Char) : Option Char := taken.getLast?.or before

/-- Takes a text, in any letter case, from the start of another one. -/
def dropText? : List Char → List Char → Option (List Char × List Char)
  | [], s => some ([], s)
  | _ :: _, [] => none
  | t :: ts, c :: s =>
      if sameFold t c then (dropText? ts s).map fun (taken, rest) => (c :: taken, rest) else none

/-- Takes the longest run of a class, at least one character, from the start of a text. -/
def takeRun? (cls : CharClass) : List Char → Option (List Char × List Char)
  | [] => none
  | c :: s =>
      if cls.contains c then some (c :: s.takeWhile cls.contains, s.dropWhile cls.contains)
      else none

/-- The runs of a pattern at a place, the preferred one first. -/
def runs : Pattern → Option Char → List Char → List Run
  | .empty, _, s => [⟨[], s, []⟩]
  | .literal text, _, s =>
      match dropText? text s with
      | none => []
      | some (taken, rest) => [⟨taken, rest, []⟩]
  | .run cls, _, s =>
      match takeRun? cls s with
      | none => []
      | some (taken, rest) => [⟨taken, rest, []⟩]
  | .boundary, before, s => if isBoundary before s.head? then [⟨[], s, []⟩] else []
  | .seq first second, before, s =>
      (first.runs before s).flatMap fun r =>
        (second.runs (lastOf before r.taken) r.rest).map r.followedBy
  | .alt first second, before, s => first.runs before s ++ second.runs before s
  | .capture inner, before, s => (inner.runs before s).map Run.captured

/-! ## What a run is -/

/-- A text that has been taken, put before the rest, gives back the whole. -/
theorem dropText?_append (t s taken rest : List Char) (h : dropText? t s = some (taken, rest)) :
    taken ++ rest = s := by
  induction t generalizing s taken with
  | nil =>
      simp only [dropText?, Option.some.injEq, Prod.mk.injEq] at h
      obtain ⟨rfl, rfl⟩ := h
      rfl
  | cons c ts ih =>
      cases s with
      | nil => simp [dropText?] at h
      | cons d s =>
          rw [dropText?] at h
          split at h
          · obtain ⟨⟨taken', rest'⟩, hrec, heq⟩ := Option.map_eq_some_iff.mp h
            simp only [Prod.mk.injEq] at heq
            obtain ⟨rfl, rfl⟩ := heq
            rw [List.cons_append, ih s taken' hrec]
          · simp at h

/-- A run that has been taken, put before the rest, gives back the whole. -/
theorem takeRun?_append (cls : CharClass) (s taken rest : List Char)
    (h : takeRun? cls s = some (taken, rest)) : taken ++ rest = s := by
  cases s with
  | nil => simp [takeRun?] at h
  | cons c s =>
      rw [takeRun?] at h
      split at h
      · simp only [Option.some.injEq, Prod.mk.injEq] at h
        obtain ⟨rfl, rfl⟩ := h
        rw [List.cons_append, List.takeWhile_append_dropWhile]
      · simp at h

/-- **A run takes the beginning of the text and leaves the rest.** -/
theorem taken_append_rest (p : Pattern) (before : Option Char) (s : List Char) (r : Run)
    (h : r ∈ p.runs before s) : r.taken ++ r.rest = s := by
  induction p generalizing before s r with
  | empty =>
      rw [runs, List.mem_singleton] at h
      subst h
      rfl
  | literal text =>
      rw [runs] at h
      split at h
      · simp at h
      · next taken rest heq =>
          rw [List.mem_singleton] at h
          subst h
          exact dropText?_append text s taken rest heq
  | run cls =>
      rw [runs] at h
      split at h
      · simp at h
      · next taken rest heq =>
          rw [List.mem_singleton] at h
          subst h
          exact takeRun?_append cls s taken rest heq
  | boundary =>
      rw [runs] at h
      split at h
      · rw [List.mem_singleton] at h
        subst h
        rfl
      · simp at h
  | seq first second ih₁ ih₂ =>
      rw [runs, List.mem_flatMap] at h
      obtain ⟨r₁, h₁, h⟩ := h
      obtain ⟨r₂, h₂, rfl⟩ := List.mem_map.mp h
      rw [Run.followedBy, List.append_assoc, ih₂ _ _ _ h₂, ih₁ _ _ _ h₁]
  | alt first second ih₁ ih₂ =>
      rw [runs, List.mem_append] at h
      rcases h with h | h
      · exact ih₁ _ _ _ h
      · exact ih₂ _ _ _ h
  | capture inner ih =>
      rw [runs] at h
      obtain ⟨r', h', rfl⟩ := List.mem_map.mp h
      exact ih before s r' h'

/-- The character before a place is found in two steps or in one. -/
theorem lastOf_append (before : Option Char) (s t : List Char) :
    lastOf before (s ++ t) = lastOf (lastOf before s) t := by
  simp [lastOf, List.getLast?_append, Option.or_assoc]

/-- A run of a sequence is one of its first part and one of its second part behind that. -/
theorem mem_runs_append {p q : Pattern} {before : Option Char} {s : List Char} {r : Run} :
    r ∈ (p ++ q).runs before s
      ↔ ∃ r₁ ∈ p.runs before s, ∃ r₂ ∈ q.runs (lastOf before r₁.taken) r₁.rest, r = r₁.followedBy r₂ := by
  show r ∈ (seq p q).runs before s ↔ _
  simp only [runs, List.mem_flatMap, List.mem_map, eq_comm]

/-- **Grouping.** A sequence of three patterns has the same runs either way. -/
theorem runs_append_assoc (p q r : Pattern) (before : Option Char) (s : List Char) :
    (p ++ q ++ r).runs before s = (p ++ (q ++ r)).runs before s := by
  show (seq (seq p q) r).runs before s = (seq p (seq q r)).runs before s
  simp only [runs, List.flatMap_assoc, List.flatMap_map, List.map_flatMap, List.map_map]
  congr 1
  funext r₁
  congr 1
  funext r₂
  rw [Run.followedBy, lastOf_append]
  congr 1
  funext r₃
  simp [Run.followedBy]

end Pattern

end TextToSql
