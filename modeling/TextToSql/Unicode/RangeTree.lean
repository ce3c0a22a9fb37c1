/-!
# Search trees over ranges of code points

A property of characters is tabulated as an ascending list of disjoint closed ranges of code points,
each with a value. `RangeTree.ofEntries` arranges such a list in a balanced tree, and
`RangeTree.find?` looks a code point up in it.

* `entries_ofEntries` : the tree holds exactly the entries of the list, in order;
* `find?_entries` : a range found by the search is one of the entries and contains the code point.
-/

namespace TextToSql.Unicode

/-- A search tree over disjoint ranges `lo … hi`, each with a value. -/
inductive RangeTree (α : Type) where
  | leaf
  | node (left : RangeTree α) (lo hi : Nat) (value : α) (right : RangeTree α)

namespace RangeTree

variable {α : Type}

/-- The ranges of a tree in order. -/
def entries : RangeTree α → List (Nat × Nat × α)
  | leaf => []
  | node left lo hi value right => left.entries ++ (lo, hi, value) :: right.entries

/-- The range that contains a code point: its lower end and its value. -/
def find? : RangeTree α → Nat → Option (Nat × α)
  | leaf, _ => none
  | node left lo hi value right, n =>
      if n < lo then left.find? n
      else if n ≤ hi then some (lo, value)
      else right.find? n

/-- Whether a code point lies in one of the ranges. -/
def contains (tree : RangeTree α) (n : Nat) : Bool := (tree.find? n).isSome

/-- A tree of at most the given depth over the first entries of a list, with the entries left over. -/
def build : Nat → List (Nat × Nat × α) → RangeTree α × List (Nat × Nat × α)
  | 0, xs => (leaf, xs)
  | depth + 1, xs =>
      match build depth xs with
      | (left, []) => (left, [])
      | (left, (lo, hi, value) :: xs') =>
          let (right, xs'') := build depth xs'
          (node left lo hi value right, xs'')

/-- The balanced tree over an ascending list of entries. -/
def ofEntries (xs : List (Nat × Nat × α)) : RangeTree α :=
  (build (Nat.log2 xs.length + 1) xs).1

/-- The tree over a list of ranges without values. -/
def ofRanges (xs : List (Nat × Nat)) : RangeTree Unit :=
  ofEntries (xs.map fun (lo, hi) => (lo, hi, ()))

/-- The tree over a list of shifts `(lo, hi, step, target)`. -/
def ofShifts (xs : List (Nat × Nat × Nat × Nat)) : RangeTree (Nat × Nat) :=
  ofEntries xs

/-- The image of a character under a tree of shifts: `lo + k * step` goes to `target + k * step`,
and a character between the steps or outside the ranges to itself. -/
def shift (tree : RangeTree (Nat × Nat)) (c : Char) : Char :=
  match tree.find? c.toNat with
  | some (lo, step, target) =>
      if (c.toNat - lo) % step = 0 then Char.ofNat (target + (c.toNat - lo)) else c
  | none => c

/-! ## What a tree holds -/

/-- Building loses nothing: the entries of the tree and those left over make up the list. -/
theorem entries_build (depth : Nat) (xs : List (Nat × Nat × α)) :
    (build depth xs).1.entries ++ (build depth xs).2 = xs := by
  induction depth generalizing xs with
  | zero => rfl
  | succ depth ih =>
      have hl := ih xs
      rw [build]
      split
      · next left heq => rw [heq] at hl; simpa using hl
      · next left lo hi value xs' heq =>
          rw [heq] at hl
          have hr := ih xs'
          simp only [entries, List.append_assoc, List.cons_append] at hl ⊢
          rw [hr]
          exact hl

/-- A tree of depth `d` takes `2 ^ d - 1` entries, unless the list is shorter. -/
theorem length_build (depth : Nat) (xs : List (Nat × Nat × α)) :
    (build depth xs).2.length = xs.length - (Nat.pow 2 depth - 1) := by
  induction depth generalizing xs with
  | zero => simp [build]
  | succ depth ih =>
      have hl := ih xs
      have hpos : 0 < Nat.pow 2 depth := Nat.two_pow_pos depth
      have hsucc : Nat.pow 2 (depth + 1) = Nat.pow 2 depth * 2 := rfl
      rw [build]
      split
      · next left heq =>
          rw [heq] at hl
          simp only [List.length_nil] at hl ⊢
          rw [hsucc]
          omega
      · next left lo hi value xs' heq =>
          rw [heq] at hl
          have hr := ih xs'
          simp only [List.length_cons] at hl ⊢
          rw [hr, hsucc]
          omega

/-- The tree over a list holds exactly the entries of the list, in order. -/
theorem entries_ofEntries (xs : List (Nat × Nat × α)) : (ofEntries xs).entries = xs := by
  have hall := entries_build (Nat.log2 xs.length + 1) xs
  have hlen := length_build (Nat.log2 xs.length + 1) xs
  have hlt : xs.length < Nat.pow 2 (Nat.log2 xs.length + 1) := Nat.lt_log2_self
  have hnil : (build (Nat.log2 xs.length + 1) xs).2 = [] := by
    apply List.eq_nil_of_length_eq_zero
    omega
  rw [hnil, List.append_nil] at hall
  exact hall

/-- A range found by the search is one of the entries, and the code point lies in it. -/
theorem find?_entries (tree : RangeTree α) (n lo : Nat) (value : α)
    (h : tree.find? n = some (lo, value)) :
    ∃ hi, (lo, hi, value) ∈ tree.entries ∧ lo ≤ n ∧ n ≤ hi := by
  induction tree with
  | leaf => simp [find?] at h
  | node left lo' hi' value' right ihl ihr =>
      rw [find?] at h
      split at h
      · obtain ⟨hi, hmem, hlo, hhi⟩ := ihl h
        exact ⟨hi, by simp [entries, hmem], hlo, hhi⟩
      · split at h
        · simp only [Option.some.injEq, Prod.mk.injEq] at h
          obtain ⟨rfl, rfl⟩ := h
          exact ⟨hi', by simp [entries], by omega, by omega⟩
        · obtain ⟨hi, hmem, hlo, hhi⟩ := ihr h
          exact ⟨hi, by simp [entries, hmem], hlo, hhi⟩

end RangeTree

end TextToSql.Unicode
