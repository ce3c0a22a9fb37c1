import TextToSql.Pattern.Basic

/-!
# Matches of a pattern in a text

A text is scanned from left to right. At each place the pattern is tried, its preferred run is the
match there, and the scan goes on behind it; so matches do not overlap. An empty match right behind
the match before it does not count.

A pattern that starts with a run of a class and fails inside such a run fails in all of it, so the
scan passes over the run at once and its time does not grow with the square of the run.

* `scanFrom_eq_matchesFrom` : passing over a run loses no match;
* `matchesIn_eq_nil_iff` : a pattern does not occur in a text exactly when it has no match there.
-/

namespace TextToSql

/-- A match of a pattern: the number of bytes before it, its text and its captured parts. -/
structure Match where
  offset : Nat
  text : String
  captures : List String

namespace Pattern

/-- The match that a run at a place makes up. -/
def Run.toMatch (offset : Nat) (r : Run) : Match :=
  ⟨offset, String.ofList r.taken, r.captures.map String.ofList⟩

/-- The match of a pattern at a place, if it is to count there: an empty one does not count where
the last match ended. -/
def matchAt? (p : Pattern) (before : Option Char) (justEnded : Bool) (s : List Char) : Option Run :=
  match p.runs before s with
  | [] => none
  | r :: _ => if r.taken.isEmpty && justEnded then none else some r

/-- The matches of a pattern from a place on. The place is given by the character before it and the
number of bytes before it; `skip` counts the characters from it to the end of the last match, and
`justEnded` tells whether a match ends where they end. -/
def matchesFrom (p : Pattern) (before : Option Char) (offset skip : Nat) (justEnded : Bool) :
    List Char → List Match
  | [] =>
      match skip with
      | 0 => ((p.matchAt? before justEnded []).map (Run.toMatch offset)).toList
      | _ + 1 => []
  | c :: rest =>
      match skip with
      | n + 1 => matchesFrom p (some c) (offset + c.utf8Size) n true rest
      | 0 =>
          match p.matchAt? before justEnded (c :: rest) with
          | none => matchesFrom p (some c) (offset + c.utf8Size) 0 false rest
          | some r =>
              r.toMatch offset :: matchesFrom p (some c) (offset + c.utf8Size)
                (r.taken.length - 1) (!r.taken.isEmpty) rest

/-- The match of a pattern at a place is one of its runs there. -/
theorem mem_runs_of_matchAt? (p : Pattern) (before : Option Char) (justEnded : Bool) (s : List Char)
    (r : Run) (h : p.matchAt? before justEnded s = some r) : r ∈ p.runs before s := by
  rw [matchAt?] at h
  split at h
  · cases h
  · next r' rs hruns =>
      split at h
      · cases h
      · cases h
        rw [hruns]
        exact List.mem_cons_self

/-! ## Passing over a run -/

/-- The class whose longest run a pattern starts with, if it starts with one. -/
def leadingClass? : Pattern → Option CharClass
  | .run cls => some cls
  | .seq first _ => first.leadingClass?
  | .capture inner => inner.leadingClass?
  | _ => none

/-- How much the scan passes over after a pattern has failed at a character: the rest of the run of
the class that the pattern starts with. -/
def passOver (p : Pattern) (c : Char) (rest : List Char) : Nat :=
  match p.leadingClass? with
  | none => 0
  | some cls => if cls.contains c then (rest.takeWhile cls.contains).length else 0

/-- The matches of a pattern from a place on, as `matchesFrom` finds them, by a scan that passes over
the run in which the pattern has failed. -/
def scanFrom (p : Pattern) (before : Option Char) (offset skip : Nat) (justEnded : Bool) :
    List Char → List Match
  | [] =>
      match skip with
      | 0 => ((p.matchAt? before justEnded []).map (Run.toMatch offset)).toList
      | _ + 1 => []
  | c :: rest =>
      match skip with
      | n + 1 => scanFrom p (some c) (offset + c.utf8Size) n true rest
      | 0 =>
          match p.matchAt? before justEnded (c :: rest) with
          | none => scanFrom p (some c) (offset + c.utf8Size) (p.passOver c rest) false rest
          | some r =>
              r.toMatch offset :: scanFrom p (some c) (offset + c.utf8Size)
                (r.taken.length - 1) (!r.taken.isEmpty) rest

/-- Where a run ends: the character before its end, and what it left. -/
def Run.ending (before : Option Char) (r : Run) : Option Char × List Char :=
  (lastOf before r.taken, r.rest)

/-- The second part of a sequence goes on where the first one ends. -/
theorem map_ending_runs_seq (first second : Pattern) (before : Option Char) (s : List Char) :
    ((seq first second).runs before s).map (Run.ending before)
      = ((first.runs before s).map (Run.ending before)).flatMap fun e =>
          (second.runs e.1 e.2).map (Run.ending e.1) := by
  rw [runs, List.map_flatMap, List.flatMap_map]
  congr 1
  funext r
  rw [List.map_map, Run.ending]
  congr 1
  funext r'
  simp [Run.ending, Run.followedBy, lastOf_append]

/-- A captured run ends where the run ends. -/
theorem map_ending_runs_capture (inner : Pattern) (before : Option Char) (s : List Char) :
    ((capture inner).runs before s).map (Run.ending before)
      = (inner.runs before s).map (Run.ending before) := by
  rw [runs, List.map_map]
  rfl

/-- Inside a run of the class that a pattern starts with, the pattern ends at the same places from
one character as from the next. -/
theorem map_ending_runs_cons (p : Pattern) (cls : CharClass) (hp : p.leadingClass? = some cls)
    (before : Option Char) (c d : Char) (s : List Char) (hc : cls.contains c = true)
    (hd : cls.contains d = true) :
    (p.runs before (c :: d :: s)).map (Run.ending before)
      = (p.runs (some c) (d :: s)).map (Run.ending (some c)) := by
  induction p with
  | empty => simp [leadingClass?] at hp
  | literal text => simp [leadingClass?] at hp
  | run cls' =>
      simp only [leadingClass?, Option.some.injEq] at hp
      subst hp
      simp [runs, takeRun?, hc, hd, Run.ending, lastOf, List.getLast?_cons]
  | boundary => simp [leadingClass?] at hp
  | seq first second ih₁ _ =>
      rw [map_ending_runs_seq, map_ending_runs_seq, ih₁ (by simpa [leadingClass?] using hp)]
  | alt first second _ _ => simp [leadingClass?] at hp
  | capture inner ih =>
      rw [map_ending_runs_capture, map_ending_runs_capture,
        ih (by simpa [leadingClass?] using hp)]

/-- A pattern that starts with a run fails where no character of the class stands. -/
theorem runs_eq_nil_of_leadingClass? (p : Pattern) (cls : CharClass)
    (hp : p.leadingClass? = some cls) (before : Option Char) (s : List Char)
    (hs : ∀ c ∈ s.head?, cls.contains c = false) : p.runs before s = [] := by
  induction p with
  | empty => simp [leadingClass?] at hp
  | literal text => simp [leadingClass?] at hp
  | run cls' =>
      simp only [leadingClass?, Option.some.injEq] at hp
      subst hp
      cases s with
      | nil => simp [runs, takeRun?]
      | cons c s => simp [runs, takeRun?, hs c (by simp)]
  | boundary => simp [leadingClass?] at hp
  | seq first second ih₁ _ => simp [runs, ih₁ (by simpa [leadingClass?] using hp)]
  | alt first second _ _ => simp [leadingClass?] at hp
  | capture inner ih => simp [runs, ih (by simpa [leadingClass?] using hp)]

/-- A pattern that starts with a run takes something. -/
theorem taken_ne_nil_of_leadingClass? (p : Pattern) (cls : CharClass)
    (hp : p.leadingClass? = some cls) (before : Option Char) (s : List Char) (r : Run)
    (h : r ∈ p.runs before s) : r.taken ≠ [] := by
  induction p generalizing r with
  | empty => simp [leadingClass?] at hp
  | literal text => simp [leadingClass?] at hp
  | run cls' =>
      rw [runs] at h
      split at h
      · simp at h
      · next taken rest heq =>
          rw [List.mem_singleton] at h
          subst h
          cases s with
          | nil => simp [takeRun?] at heq
          | cons c s =>
              rw [takeRun?] at heq
              split at heq
              · simp only [Option.some.injEq, Prod.mk.injEq] at heq
                simp [← heq.1]
              · simp at heq
  | boundary => simp [leadingClass?] at hp
  | seq first second ih₁ _ =>
      rw [runs, List.mem_flatMap] at h
      obtain ⟨r₁, h₁, h⟩ := h
      obtain ⟨r₂, _, rfl⟩ := List.mem_map.mp h
      have hne := ih₁ (by simpa [leadingClass?] using hp) r₁ h₁
      simp [Run.followedBy, hne]
  | alt first second _ _ => simp [leadingClass?] at hp
  | capture inner ih =>
      rw [runs] at h
      obtain ⟨r', h', rfl⟩ := List.mem_map.mp h
      exact ih (by simpa [leadingClass?] using hp) r' h'

/-- A pattern that starts with a run has no run where it has no match. -/
theorem runs_eq_nil_of_matchAt? (p : Pattern) (cls : CharClass)
    (hp : p.leadingClass? = some cls) (before : Option Char) (justEnded : Bool) (s : List Char)
    (h : p.matchAt? before justEnded s = none) : p.runs before s = [] := by
  rw [matchAt?] at h
  cases hr : p.runs before s with
  | nil => rfl
  | cons r rs =>
      have hne := taken_ne_nil_of_leadingClass? p cls hp before s r (by simp [hr])
      simp [hr, hne] at h

/-- A pattern without runs at a place has no match there. -/
theorem matchAt?_of_runs_eq_nil (p : Pattern) (before : Option Char) (justEnded : Bool)
    (s : List Char) (h : p.runs before s = []) : p.matchAt? before justEnded s = none := by
  rw [matchAt?, h]

/-- Where a pattern that starts with a run has failed inside such a run, nothing is lost by going to
the end of the run. -/
theorem matchesFrom_passOver (p : Pattern) (cls : CharClass) (hp : p.leadingClass? = some cls)
    (before : Option Char) (c : Char) (offset : Nat) (s : List Char) (b : Bool)
    (hc : cls.contains c = true) (h : p.runs before (c :: s) = []) :
    p.matchesFrom (some c) offset (s.takeWhile cls.contains).length b s
      = p.matchesFrom (some c) offset 0 false s := by
  induction s generalizing before c offset b with
  | nil =>
      have hnil := runs_eq_nil_of_leadingClass? p cls hp (some c) [] (by simp)
      simp [matchesFrom, matchAt?_of_runs_eq_nil, hnil]
  | cons d s ih =>
      cases hd : cls.contains d with
      | true =>
          have hrun : p.runs (some c) (d :: s) = [] := by
            have heq := map_ending_runs_cons p cls hp before c d s hc hd
            rw [h, List.map_nil] at heq
            exact List.map_eq_nil_iff.mp heq.symm
          have hat : p.matchAt? (some c) false (d :: s) = none :=
            matchAt?_of_runs_eq_nil p (some c) false (d :: s) hrun
          have hlen : ((d :: s).takeWhile cls.contains).length
              = (s.takeWhile cls.contains).length + 1 := by simp [hd]
          rw [hlen, matchesFrom, matchesFrom, hat]
          exact ih (some c) d _ true hd hrun
      | false =>
          have hrun : p.runs (some c) (d :: s) = [] :=
            runs_eq_nil_of_leadingClass? p cls hp (some c) (d :: s) (by simpa using hd)
          have hat : ∀ b, p.matchAt? (some c) b (d :: s) = none := fun b =>
            matchAt?_of_runs_eq_nil p (some c) b (d :: s) hrun
          simp [hd, matchesFrom, hat]

/-- **Passing over a run loses no match.** -/
theorem scanFrom_eq_matchesFrom (p : Pattern) (before : Option Char) (offset skip : Nat)
    (justEnded : Bool) (s : List Char) :
    p.scanFrom before offset skip justEnded s = p.matchesFrom before offset skip justEnded s := by
  induction s generalizing before offset skip justEnded with
  | nil => cases skip <;> rfl
  | cons c rest ih =>
      cases skip with
      | succ n =>
          rw [scanFrom, matchesFrom]
          exact ih _ _ _ _
      | zero =>
          rw [scanFrom, matchesFrom]
          cases hat : p.matchAt? before justEnded (c :: rest) with
          | some r =>
              show r.toMatch offset :: _ = r.toMatch offset :: _
              rw [ih]
          | none =>
              show p.scanFrom _ _ _ _ rest = p.matchesFrom _ _ _ _ rest
              rw [ih, passOver]
              split
              · rfl
              · next cls hcls =>
                  split
                  · next hc =>
                      have hrun := runs_eq_nil_of_matchAt? p cls hcls before _ (c :: rest) hat
                      exact matchesFrom_passOver p cls hcls before c _ rest false hc hrun
                  · rfl

/-! ## Searching a text -/

/-- The successive matches of a pattern in a text. -/
def matchesIn (p : Pattern) (text : String) : List Match := p.scanFrom none 0 0 false text.toList

/-- The matches in a text are those found place by place. -/
theorem matchesIn_eq (p : Pattern) (text : String) :
    p.matchesIn text = p.matchesFrom none 0 0 false text.toList :=
  scanFrom_eq_matchesFrom p none 0 0 false text.toList

/-- The first match of a pattern in a text. -/
def find? (p : Pattern) (text : String) : Option Match := (p.matchesIn text).head?

/-- Whether a pattern matches somewhere in a text. -/
def occursIn (p : Pattern) (text : String) : Bool := (p.find? text).isSome

/-- A pattern that does not occur in a text has no matches there. -/
theorem matchesIn_eq_nil_iff (p : Pattern) (text : String) :
    p.matchesIn text = [] ↔ p.occursIn text = false := by
  rw [occursIn, find?]
  cases p.matchesIn text <;> simp

end Pattern

end TextToSql
