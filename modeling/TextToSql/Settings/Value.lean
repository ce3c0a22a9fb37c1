import TextToSql.Text.Lower
import TextToSql.Text.Numeral

/-!
# Values of settings

The values that a settings file is made of, how tables of them are laid over each other, and how a
value is read as a text, a flag or a number. A value of another kind is taken where it has a plain
meaning: the text of a number, the flag of a word such as `yes`, the number of a flag.

* `find?_put` : a key has the value that was put last.
-/

namespace TextToSql.Settings

/-! ## Decimal fractions -/

/-- A decimal fraction: digits without leading zeros, of which the last `places` stand behind the
point. -/
structure Decimal where
  negative : Bool
  digits : Nat
  places : Nat
deriving DecidableEq

namespace Decimal

/-- The fraction without zeros at the end. The first argument bounds their number. -/
def shorten : Nat → Nat → Nat → Nat × Nat
  | 0, digits, places => (digits, places)
  | bound + 1, digits, places =>
      if 0 < places && digits % 10 = 0 then shorten bound (digits / 10) (places - 1)
      else (digits, places)

/-- The shortest positional form of a fraction. -/
def toText (d : Decimal) : String :=
  let (digits, places) := shorten d.places d.digits d.places
  let whole := (digits / Nat.pow 10 places).repr
  let sign := if d.negative then "-" else ""
  if places = 0 then sign ++ whole
  else
    let decimals := (digits % Nat.pow 10 places).repr
    sign ++ whole ++ "." ++ "".pushn '0' (places - decimals.length) ++ decimals

/-- The nearest natural number, a half going up; a negative fraction counts as zero. -/
def toNat (d : Decimal) : Nat :=
  if d.negative then 0 else (2 * d.digits + Nat.pow 10 d.places) / (2 * Nat.pow 10 d.places)

end Decimal

/-! ## Values -/

/-- A value in a settings file. -/
inductive Value where
  | flag (b : Bool)
  | integer (n : Int)
  | decimal (d : Decimal)
  | text (s : String)
  | list (items : List Value)
  | table (entries : List (String × Value))

/-- The entries of a table. -/
abbrev Entries := List (String × Value)

namespace Entries

/-- The value of a key. -/
def find? (key : String) : Entries → Option Value
  | [] => none
  | (k, v) :: rest => if k = key then some v else find? key rest

/-- Gives a key a value, in the place where it stands, or else at the end. -/
def put (key : String) (value : Value) : Entries → Entries
  | [] => [(key, value)]
  | (k, v) :: rest => if k = key then (k, value) :: rest else (k, v) :: put key value rest

/-- A key has the value that was put last. -/
theorem find?_put (key other : String) (value : Value) (entries : Entries) :
    find? other (put key value entries) =
      if key = other then some value else find? other entries := by
  induction entries with
  | nil => by_cases h : key = other <;> simp [put, find?, h]
  | cons entry rest ih =>
      obtain ⟨k, v⟩ := entry
      by_cases hk : k = key
      · subst hk
        by_cases h : k = other <;> simp [put, find?, h]
      · by_cases ho : k = other
        · subst ho
          simp [put, find?, hk, Ne.symm hk]
        · simp [put, find?, hk, ho, ih]

end Entries

namespace Value

/-- The entries of a value: those of a table, and none of anything else. -/
def entries : Value → Entries
  | table entries => entries
  | _ => []

/-- The value of a field of a record: by its name in a table, by its place in a list. -/
def field? (name : String) (place : Nat) : Value → Option Value
  | table entries => Entries.find? name entries
  | list items => items[place]?
  | _ => none

/-! ## Laying tables over each other -/

mutual

/-- Sets a key of a table: a table is laid over what the key has, anything else replaces it. -/
def set (key : String) : Value → Value → Value
  | table incoming, root =>
      let child := (root.entries.find? key).getD (table [])
      table (root.entries.put key (setAll incoming child))
  | value, root => table (root.entries.put key value)

/-- Sets keys of a value one after another. -/
def setAll : Entries → Value → Value
  | [], root => root
  | (key, value) :: rest, root => setAll rest (set key value root)

end

/-- Sets a key that is reached through tables inside tables. -/
def setAt : List String → Value → Value → Value
  | [], _, root => root
  | [key], value, root => value.set key root
  | key :: keys, value, root =>
      let child := match root.entries.find? key with
        | some (table entries) => table entries
        | _ => table []
      table (root.entries.put key (setAt keys value child))

/-! ## Reading values -/

/-- The words that stand for a set flag. -/
def trueWords : List String := ["true", "on", "yes"]

/-- The words that stand for a cleared flag. -/
def falseWords : List String := ["false", "off", "no"]

/-- A value as a text. -/
def toText? : Value → Option String
  | flag b => some (if b then "true" else "false")
  | integer n => some n.repr
  | decimal d => some d.toText
  | text s => some s
  | list _ => none
  | table _ => none

/-- A value as a flag. -/
def toFlag? : Value → Option Bool
  | flag b => some b
  | integer n => some (n != 0)
  | decimal d => some (d.digits != 0)
  | text s =>
      let word := Text.lowerOf s
      if ("1" :: trueWords).contains word then some true
      else if ("0" :: falseWords).contains word then some false
      else none
  | list _ => none
  | table _ => none

/-- The number that a text writes in decimal digits, if it is below the limit. A plus sign may stand
before it. -/
def numeral? (limit : Nat) (s : String) : Option Nat :=
  let digits := match s.toList with
    | '+' :: rest => rest
    | s => s
  (Text.numeral? digits).filter (· < limit)

/-- A value as a natural number of 64 bits. -/
def toNat? : Value → Option Nat
  | flag b => some (if b then 1 else 0)
  | integer n => if 0 ≤ n then some n.toNat else none
  | decimal d => some (min d.toNat (UInt64.size - 1))
  | text s =>
      let word := Text.lowerOf s
      if trueWords.contains word then some 1
      else if falseWords.contains word then some 0
      else numeral? UInt64.size s
  | list _ => none
  | table _ => none

/-- A value as the number of a port; of a larger number its last 16 bits count. -/
def toPort? (value : Value) : Option (Fin 65536) := value.toNat?.map (Fin.ofNat 65536)

end Value

end TextToSql.Settings
