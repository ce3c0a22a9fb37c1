import Mathlib
import TextToSql.Sql.Grammar

/-!
# Conditions as SQL reads them

The text of a condition is divided by its connectives: first at every `OR`, each part then at every `AND`,
and what is left is a factor. A factor that starts with `NOT` denies the factor behind it, one between
parentheses is a condition again, and any other is an atom, a test that is true, false or unknown.

A connective divides a text only outside parentheses and brackets and outside a `CASE`. The first `AND`
behind a `BETWEEN` belongs to the range, and a word behind a point is the name of a column.

* `cut_append` : a text behind another is divided as if it stood alone;
* `read_of_length_lt` : the depth to which parentheses are read is no limit.
-/

namespace TextToSql.Sql

/-! ## Truth values -/

/-- What a test gives: SQL leaves a test of an absent value unknown. -/
inductive Truth where
  | yes
  | no
  | unknown
deriving DecidableEq

namespace Truth

/-- The value of a denial. -/
def not : Truth → Truth
  | .yes => .no
  | .no => .yes
  | .unknown => .unknown

/-- Both of two values hold: one that does not hold settles it. -/
def both : Truth → Truth → Truth
  | .yes, v => v
  | .no, _ => .no
  | .unknown, .no => .no
  | .unknown, _ => .unknown

/-- One of two values holds: one that holds settles it. -/
def either (v w : Truth) : Truth := (both v.not w.not).not

/-- All values of a list hold. -/
def all (vs : List Truth) : Truth := vs.foldr both .yes

/-- One of the values of a list holds. -/
def any (vs : List Truth) : Truth := vs.foldr either .no

/-- Values can be put together in any grouping. -/
theorem both_assoc (u v w : Truth) : both (both u v) w = both u (both v w) := by
  cases u <;> cases v <;> cases w <;> rfl

/-- A value that holds changes nothing. -/
@[simp] theorem both_yes (v : Truth) : both v .yes = v := by cases v <;> rfl

/-- A value is the alternative of itself and one that does not hold. -/
@[simp] theorem either_no (v : Truth) : either v .no = v := by cases v <;> rfl

/-- A list of values with one in front. -/
@[simp] theorem all_cons (v : Truth) (vs : List Truth) : all (v :: vs) = both v (all vs) := rfl

/-- All values of two lists hold. -/
theorem all_append (vs ws : List Truth) : all (vs ++ ws) = both (all vs) (all ws) := by
  induction vs with
  | nil => rfl
  | cons v vs ih => rw [List.cons_append, all_cons, ih, all_cons, both_assoc]

end Truth

/-! ## Conditions -/

/-- A condition made of atoms: denials, conjunctions and alternatives. -/
inductive Logic where
  | atom (ts : List Token)
  | denial (e : Logic)
  | both (es : List Logic)
  | either (es : List Logic)

namespace Logic

mutual

/-- The value of a condition, given those of its atoms. -/
def value (σ : List Token → Truth) : Logic → Truth
  | .atom ts => σ ts
  | .denial e => (e.value σ).not
  | .both es => .all (values σ es)
  | .either es => .any (values σ es)

/-- The values of a list of conditions, given those of its atoms. -/
def values (σ : List Token → Truth) : List Logic → List Truth
  | [] => []
  | e :: es => e.value σ :: values σ es

end

/-- The values of a list of conditions are those of its members. -/
theorem values_eq_map (σ : List Token → Truth) (es : List Logic) : values σ es = es.map (value σ) := by
  induction es with
  | nil => rfl
  | cons e es ih => rw [values, ih, List.map_cons]

/-! ## Places in a text -/

/-- The connectives between conditions. -/
inductive Connective where
  | and
  | or

/-- The keyword of a connective. -/
def Connective.keyword : Connective → String
  | .and => "AND"
  | .or => "OR"

/-- What a connective does not divide: what stands between parentheses or brackets, a choice from `CASE`
to `END`, and a range from `BETWEEN` to its `AND`. -/
inductive Group where
  | parentheses
  | brackets
  | choice
  | range
deriving DecidableEq

/-- A place in a text: the groups that are open there, from the inside out, and whether it is right behind
a point. -/
structure Place where
  groups : List Group
  behindPoint : Bool
deriving DecidableEq

/-- The place outside all groups. -/
def Place.outside : Place := ⟨[], false⟩

/-- Whether a token is a keyword at a place: a word behind a point is a name. -/
def Place.isKeyword (place : Place) (k : String) (t : Token) : Bool :=
  !place.behindPoint && Form.isKeyword k t

/-- The group that a token opens. -/
def Place.opened? (place : Place) (t : Token) : Option Group :=
  if t = .symbol "(" then some .parentheses
  else if t = .symbol "[" then some .brackets
  else if place.isKeyword "CASE" t then some .choice
  else if place.isKeyword "BETWEEN" t then some .range
  else none

/-- Whether a token closes a group. -/
def Place.closes (place : Place) (t : Token) : Group → Bool
  | .parentheses => t = .symbol ")"
  | .brackets => t = .symbol "]"
  | .choice => place.isKeyword "END" t
  | .range => place.isKeyword "AND" t

/-- The place behind a token; none behind a closing sign of a group that is not the innermost one. -/
def Place.next? (place : Place) (t : Token) : Option Place :=
  if place.groups.head?.any (place.closes t) then some ⟨place.groups.tail, false⟩
  else if t = .symbol ")" || t = .symbol "]" then none
  else some ⟨(place.opened? t).toList ++ place.groups, t = .symbol "."⟩

/-- Whether every group of a list of tokens is closed in it, and none that it does not open. -/
def isBalanced (ts : List Token) : Bool := ts.foldlM Place.next? .outside = some .outside

/-! ## Division -/

/-- Whether a token is a connective that divides the text. -/
def divides (k : Connective) (place : Place) (t : Token) : Bool :=
  place.groups.isEmpty && place.isKeyword k.keyword t

/-- The parts of a text between the places where a connective divides it; none if a group is not
closed. -/
def cut (k : Connective) : Place → List Token → Option (List (List Token))
  | place, [] => if place = .outside then some [[]] else none
  | place, t :: ts =>
      if divides k place t then (cut k .outside ts).map ([] :: ·)
      else (place.next? t).bind fun next => (cut k next ts).map (List.modifyHead (t :: ·))

/-- A text has at least one part. -/
theorem cut_ne_nil (k : Connective) (place : Place) (ts : List Token) (parts : List (List Token))
    (h : cut k place ts = some parts) : parts ≠ [] := by
  induction ts generalizing place parts with
  | nil =>
      rw [cut] at h
      split at h
      · cases h; simp
      · cases h
  | cons t ts ih =>
      rw [cut] at h
      split at h
      · obtain ⟨parts', _, rfl⟩ := Option.map_eq_some_iff.mp h
        simp
      · obtain ⟨next, _, hnext⟩ := Option.bind_eq_some_iff.mp h
        obtain ⟨parts', hparts, rfl⟩ := Option.map_eq_some_iff.mp hnext
        simpa [List.modifyHead_eq_nil_iff] using ih next parts' hparts

/-- The parts of two texts one behind the other: the last part of the first goes on with the first part of
the second. -/
def joinParts : List (List Token) → List (List Token) → List (List Token)
  | [], more => more
  | [last], more => more.modifyHead (last ++ ·)
  | part :: parts, more => part :: joinParts parts more

/-- A part that is not the last one stays as it is. -/
theorem joinParts_cons (part : List Token) (parts more : List (List Token)) (hne : parts ≠ []) :
    joinParts (part :: parts) more = part :: joinParts parts more := by
  obtain ⟨next, parts, rfl⟩ := List.exists_cons_of_ne_nil hne
  rfl

/-- A token in front of the first text is in front of both. -/
theorem joinParts_modifyHead (t : Token) (parts more : List (List Token)) (hne : parts ≠ []) :
    joinParts (parts.modifyHead (t :: ·)) more = (joinParts parts more).modifyHead (t :: ·) := by
  match parts, hne with
  | [last], _ => cases more <;> rfl
  | part :: next :: parts, _ => rfl

/-- A connective at the start of the second text ends the last part of the first. -/
theorem joinParts_nil_cons (parts more : List (List Token)) (hne : parts ≠ []) :
    joinParts parts ([] :: more) = parts ++ more := by
  induction parts with
  | nil => exact absurd rfl hne
  | cons part parts ih =>
      cases parts with
      | nil => simp [joinParts]
      | cons next parts => exact congrArg (part :: ·) (ih (by simp))

/-- **A text behind another** is divided as if it stood alone. -/
theorem cut_append (k : Connective) (place : Place) (ts us : List Token) (parts : List (List Token))
    (h : cut k place ts = some parts) :
    cut k place (ts ++ us) = (cut k .outside us).map (joinParts parts) := by
  induction ts generalizing place parts with
  | nil =>
      rw [cut] at h
      split at h
      · next hplace =>
          cases h
          have hsame : joinParts [[]] = id := by
            funext more
            cases more <;> rfl
          rw [hplace, List.nil_append, hsame, Option.map_id, id]
      · cases h
  | cons t ts ih =>
      rw [cut] at h
      rw [List.cons_append, cut]
      split at h
      · next hdivides =>
          obtain ⟨parts', hparts, rfl⟩ := Option.map_eq_some_iff.mp h
          have hne := cut_ne_nil k .outside ts parts' hparts
          rw [if_pos hdivides, ih .outside parts' hparts, Option.map_map]
          exact congrArg (Option.map · _) (funext fun more => (joinParts_cons [] parts' more hne).symm)
      · next hdivides =>
          obtain ⟨next, hnext, hrest⟩ := Option.bind_eq_some_iff.mp h
          obtain ⟨parts', hparts, rfl⟩ := Option.map_eq_some_iff.mp hrest
          have hne := cut_ne_nil k next ts parts' hparts
          rw [if_neg hdivides, hnext, Option.bind_some, ih next parts' hparts, Option.map_map]
          exact congrArg (Option.map · _) (funext fun more => (joinParts_modifyHead t parts' more hne).symm)

/-! ## Reading -/

/-- Whether a text is a query: what stands between parentheses is then a value and no condition. -/
def isQuery (ts : List Token) : Bool :=
  ts.head?.any fun t => ["SELECT", "WITH", "VALUES", "TABLE"].any (Form.isKeyword · t)

/-- The condition between parentheses, if a text is one. -/
def enclosed? (ts : List Token) : Option (List Token) :=
  let body := ts.tail.dropLast
  if ts.head? = some (.symbol "(") && ts.tail.getLast? = some (.symbol ")") && isBalanced body
      && !isQuery body then some body
  else none

/-- The factor that a text is, given how conditions between parentheses are read. -/
def factor (inner : List Token → Option Logic) : List Token → Option Logic
  | [] => none
  | t :: ts =>
      if Form.isKeyword "NOT" t then (factor inner ts).map .denial
      else
        match enclosed? (t :: ts) with
        | some body => inner body
        | none => some (.atom (t :: ts))

/-- The conjunction of factors that a text is. -/
def conjunction (inner : List Token → Option Logic) (ts : List Token) : Option Logic :=
  (cut .and .outside ts).bind fun parts => (parts.mapM (factor inner)).map .both

/-- The condition that a text is, with parentheses inside each other up to a depth. -/
def read : Nat → List Token → Option Logic
  | 0, _ => none
  | depth + 1, ts =>
      (cut .or .outside ts).bind fun parts => (parts.mapM (conjunction (read depth))).map .either

/-- The condition that a list of tokens is: parentheses do not go deeper than there are tokens. -/
def ofTokens? (ts : List Token) : Option Logic := read (ts.length + 1) ts

/-- The condition that a text is. -/
def ofText? (sql : String) : Option Logic := (Token.ofText? sql).bind ofTokens?

/-- The value of a text, given those of its atoms; a text that is no condition has none. -/
def valueOf (σ : List Token → Truth) (sql : String) : Truth :=
  match ofText? sql with
  | some e => e.value σ
  | none => .unknown

/-- A text that `OR` does not divide. -/
def Undivided (sql : String) : Prop := (Token.ofText? sql).any fun ts => cut .or .outside ts = some [ts]

instance (sql : String) : Decidable (Undivided sql) :=
  inferInstanceAs (Decidable (((Token.ofText? sql).any fun ts => cut .or .outside ts = some [ts]) = true))

/-! ## Depth -/

/-- A part of a text is not longer than the text. -/
theorem length_le_of_mem_cut (k : Connective) (place : Place) (ts : List Token)
    (parts : List (List Token)) (h : cut k place ts = some parts) :
    ∀ part ∈ parts, part.length ≤ ts.length := by
  induction ts generalizing place parts with
  | nil =>
      rw [cut] at h
      split at h
      · cases h; simp
      · cases h
  | cons t ts ih =>
      rw [cut] at h
      split at h
      · obtain ⟨parts', hparts, rfl⟩ := Option.map_eq_some_iff.mp h
        refine List.forall_mem_cons.mpr ⟨Nat.zero_le _, fun part hpart => ?_⟩
        exact Nat.le_succ_of_le (ih .outside parts' hparts part hpart)
      · obtain ⟨next, _, hnext⟩ := Option.bind_eq_some_iff.mp h
        obtain ⟨parts', hparts, rfl⟩ := Option.map_eq_some_iff.mp hnext
        cases parts' with
        | nil => simp
        | cons first parts' =>
            obtain ⟨hfirst, hothers⟩ := List.forall_mem_cons.mp (ih next _ hparts)
            refine List.forall_mem_cons.mpr ⟨Nat.succ_le_succ hfirst, fun part hpart => ?_⟩
            exact Nat.le_succ_of_le (hothers part hpart)

/-- What stands between parentheses is shorter than the text with them. -/
theorem length_lt_of_enclosed? (ts body : List Token) (h : enclosed? ts = some body) :
    body.length < ts.length := by
  unfold enclosed? at h
  dsimp only at h
  split at h
  · next hsigns =>
      cases h
      cases ts with
      | nil => simp at hsigns
      | cons t ts =>
          simp only [List.tail_cons, List.length_dropLast, List.length_cons]
          omega
  · cases h

/-- What can be read of every member of a list is read by a reader that reads more of them. -/
theorem mapM_mono {α β : Type} {f g : α → Option β} (xs : List α) (ys : List β)
    (h : ∀ x ∈ xs, ∀ y, f x = some y → g x = some y) (hread : xs.mapM f = some ys) :
    xs.mapM g = some ys := by
  induction xs generalizing ys with
  | nil => exact hread
  | cons x xs ih =>
      obtain ⟨hx, hxs⟩ := List.forall_mem_cons.mp h
      simp only [List.mapM_cons, Option.bind_eq_bind, Option.bind_eq_some_iff] at hread ⊢
      obtain ⟨y, hy, ys', hys, heq⟩ := hread
      exact ⟨y, hx y hy, ys', ih ys' hxs hys, heq⟩

section Depth

variable {inner outer : List Token → Option Logic}

/-- A factor is read by a reader that reads more of the texts in it. -/
theorem factor_mono (ts : List Token) (e : Logic)
    (h : ∀ body, body.length < ts.length → ∀ e, inner body = some e → outer body = some e)
    (hread : factor inner ts = some e) : factor outer ts = some e := by
  induction ts generalizing e with
  | nil => cases hread
  | cons t ts ih =>
      rw [factor] at hread ⊢
      split at hread
      · next hnot =>
          obtain ⟨e', he, rfl⟩ := Option.map_eq_some_iff.mp hread
          have hshort : ∀ body, body.length < ts.length → ∀ e, inner body = some e → outer body = some e :=
            fun body hbody => h body (Nat.lt_succ_of_lt hbody)
          rw [if_pos hnot, ih e' hshort he]
          rfl
      · next hnot =>
          rw [if_neg hnot]
          cases hbody : enclosed? (t :: ts) with
          | none => rw [hbody] at hread; exact hread
          | some body =>
              rw [hbody] at hread
              exact h body (length_lt_of_enclosed? _ body hbody) e hread

/-- The factors of a text are read by a reader that reads more of the texts in it. -/
theorem factors_mono (ts : List Token) (parts : List (List Token)) (es : List Logic)
    (h : ∀ body, body.length < ts.length → ∀ e, inner body = some e → outer body = some e)
    (hparts : cut .and .outside ts = some parts) (hread : parts.mapM (factor inner) = some es) :
    parts.mapM (factor outer) = some es := by
  refine mapM_mono parts es (fun part hpart e he => ?_) hread
  have hle := length_le_of_mem_cut .and .outside ts parts hparts part hpart
  exact factor_mono part e (fun body hbody => h body (Nat.lt_of_lt_of_le hbody hle)) he

/-- A conjunction is read by a reader that reads more of the texts in it. -/
theorem conjunction_mono (ts : List Token) (e : Logic)
    (h : ∀ body, body.length < ts.length → ∀ e, inner body = some e → outer body = some e)
    (hread : conjunction inner ts = some e) : conjunction outer ts = some e := by
  obtain ⟨parts, hparts, hread⟩ := Option.bind_eq_some_iff.mp hread
  obtain ⟨es, hes, rfl⟩ := Option.map_eq_some_iff.mp hread
  rw [conjunction, hparts, Option.bind_some, factors_mono ts parts es h hparts hes]
  rfl

/-- **The depth is no limit**: what is read to some depth is read to any depth that is larger than the
number of tokens. -/
theorem read_of_length_lt (depth depth' : Nat) (ts : List Token) (e : Logic)
    (hread : read depth ts = some e) (h : ts.length < depth') : read depth' ts = some e := by
  induction depth generalizing depth' ts e with
  | zero => cases hread
  | succ depth ih =>
      obtain ⟨depth', rfl⟩ := Nat.exists_eq_succ_of_ne_zero (by omega : depth' ≠ 0)
      obtain ⟨parts, hparts, hread⟩ := Option.bind_eq_some_iff.mp hread
      obtain ⟨es, hes, rfl⟩ := Option.map_eq_some_iff.mp hread
      have hmore : ∀ part ∈ parts, ∀ e, conjunction (read depth) part = some e →
          conjunction (read depth') part = some e := by
        intro part hpart e he
        have hle := length_le_of_mem_cut .or .outside ts parts hparts part hpart
        refine conjunction_mono part e (fun body hbody e he => ih depth' body e he ?_) he
        omega
      rw [read, hparts, Option.bind_some, mapM_mono parts es hmore hes]
      rfl

end Depth

end Logic

end TextToSql.Sql
