import TextToSql.Json.Basic

/-!
# JSON texts as far as they can be read

A reader that decodes a JSON text from left to right stops at the first fault it meets, and a fault
of the text and a value of the wrong shape are different faults. So a text is first laid out as a
`Doc`: a tree that holds what the text says up to its first malformed place, with `broken` in that
place. A decoder that goes through the tree in order meets the two kinds of fault in the order in
which they stand in the text.

What is only skipped is held to the grammar alone. What is read as a value has to be representable as
well: escapes have to make up characters, numbers have to be of a finite size, and values may be
nested to a limited depth. So a `Doc` also holds strings and numbers that are well formed and not
representable.
-/

namespace TextToSql.Json

/-- A JSON text as far as it can be read. A string is absent if an escape in it is half of a
surrogate pair only; a number is marked finite if it is of the size of a double. An object holds its
members in order with repetitions; a member that cannot be read has neither name nor value. -/
inductive Doc where
  | null
  | bool (value : Bool)
  | number (lexeme : String) (finite : Bool)
  | string (value : Option String)
  | array (items : List Doc)
  | object (members : List (Option String × Doc))
  | broken

/-! ## Scanning the parts of a text -/

namespace Scan

/-- Whether a character is white space between the parts of a JSON text. -/
def isBlank (c : Char) : Bool := c = ' ' || c = '\n' || c = '\t' || c = '\r'

/-- A text without the white space it starts with. -/
def skip (s : List Char) : List Char := s.dropWhile isBlank

/-- The value of a hexadecimal digit in either case. -/
def hexValue? (c : Char) : Option Nat :=
  if c.isDigit then some (c.toNat - 0x30)
  else if 'a' ≤ c ∧ c ≤ 'f' then some (c.toNat - 0x61 + 10)
  else if 'A' ≤ c ∧ c ≤ 'F' then some (c.toNat - 0x41 + 10)
  else none

/-- The number of four hexadecimal digits. -/
def hexCode? (a b c d : Char) : Option Nat := do
  let a ← hexValue? a
  let b ← hexValue? b
  let c ← hexValue? c
  let d ← hexValue? d
  return ((a * 16 + b) * 16 + c) * 16 + d

/-- A piece of a string: a character, or the code unit of a numeric escape. -/
inductive Piece where
  | char (c : Char)
  | code (n : Nat)

/-- The character that a one-letter escape stands for. -/
def escaped? (c : Char) : Option Char :=
  match c with
  | '\\' => some '\\'
  | '/' => some '/'
  | 'b' => some '\x08'
  | 'f' => some '\x0c'
  | 'n' => some '\n'
  | 'r' => some '\r'
  | 't' => some '\t'
  | c => if c.toNat = 0x22 then some c else none

/-- The parts of a string up to its closing quote, and what follows. A control character, an unknown
escape and the end of the text are faults. -/
def units? : List Char → Option (List Piece × List Char)
  | [] => none
  | '\\' :: 'u' :: a :: b :: c :: d :: rest =>
      match hexCode? a b c d, units? rest with
      | some n, some (units, after) => some (.code n :: units, after)
      | _, _ => none
  | '\\' :: e :: rest =>
      match escaped? e, units? rest with
      | some c, some (units, after) => some (.char c :: units, after)
      | _, _ => none
  | c :: rest =>
      if c.toNat = 0x22 then some ([], rest)
      else if c.toNat < 0x20 || c = '\\' then none
      else (units? rest).map fun (units, after) => (.char c :: units, after)

/-- Whether a code unit is the first half of a surrogate pair. -/
def isLead (n : Nat) : Bool := 0xD800 ≤ n && n ≤ 0xDBFF

/-- Whether a code unit is the second half of a surrogate pair. -/
def isTrail (n : Nat) : Bool := 0xDC00 ≤ n && n ≤ 0xDFFF

/-- The character of a surrogate pair. -/
def paired (lead trail : Nat) : Char :=
  Char.ofNat (0x10000 + (lead - 0xD800) * 0x400 + (trail - 0xDC00))

/-- The characters that the parts of a string make up; none if half a surrogate pair is alone. -/
def assemble? : List Piece → Option (List Char)
  | [] => some []
  | .char c :: rest => (assemble? rest).map (c :: ·)
  | .code lead :: .code trail :: rest =>
      if isLead lead then
        if isTrail trail then (assemble? rest).map (paired lead trail :: ·) else none
      else if isTrail lead then none
      else (assemble? (.code trail :: rest)).map (Char.ofNat lead :: ·)
  | .code n :: rest =>
      if isLead n || isTrail n then none else (assemble? rest).map (Char.ofNat n :: ·)

/-- A string after its opening quote: its text, if it makes one up, and what follows. -/
def string? (s : List Char) : Option (Option String × List Char) :=
  (units? s).map fun (units, after) => ((assemble? units).map String.ofList, after)

/-- The parts of a number as written. -/
structure Numeral where
  negative : Bool
  whole : List Char
  fraction : List Char
  exponentNegative : Bool
  exponent : List Char

/-- The natural number that ASCII digits denote. -/
def digitsValue (digits : List Char) : Nat :=
  digits.foldl (fun n c => n * 10 + (c.toNat - 0x30)) 0

/-- The exponent part of a number, if the text goes on with one: its sign, its digits and the rest;
a fault if digits are missing. -/
def exponent? (s : List Char) : Option (Bool × List Char × List Char) :=
  match s with
  | c :: rest =>
      if c = 'e' || c = 'E' then
        let (negative, rest) :=
          match rest with
          | '-' :: rest' => (true, rest')
          | '+' :: rest' => (false, rest')
          | rest => (false, rest)
        let digits := rest.takeWhile Char.isDigit
        if digits.isEmpty then none else some (negative, digits, rest.dropWhile Char.isDigit)
      else some (false, [], s)
  | [] => some (false, [], [])

/-- The fraction part of a number, if the text goes on with one: its digits and the rest; a fault
if digits are missing. -/
def fraction? (s : List Char) : Option (List Char × List Char) :=
  match s with
  | '.' :: rest =>
      let digits := rest.takeWhile Char.isDigit
      if digits.isEmpty then none else some (digits, rest.dropWhile Char.isDigit)
  | s => some ([], s)

/-- A number at the start of a text and what follows; a fault if it has no whole part or one that
starts with a needless zero. -/
def numeral? (s : List Char) : Option (Numeral × List Char) := do
  let (negative, s) := match s with
    | '-' :: rest => (true, rest)
    | s => (false, s)
  let whole := s.takeWhile Char.isDigit
  if whole.isEmpty || (whole.head? = some '0' && whole.length ≠ 1) then none
  let (fraction, s) ← fraction? (s.dropWhile Char.isDigit)
  let (exponentNegative, exponent, s) ← exponent? s
  return (⟨negative, whole, fraction, exponentNegative, exponent⟩, s)

/-- Whether a number is of the size of a double: below the midpoint between the largest double and
the power of two above it. The number of digits before the point decides all cases but one. -/
def Numeral.isFinite (n : Numeral) : Bool :=
  let digits := (n.whole ++ n.fraction).dropWhile (· = '0')
  let exponent : Int :=
    (if n.exponentNegative then -(digitsValue n.exponent : Int) else digitsValue n.exponent)
      - n.fraction.length
  let size : Int := digits.length + exponent
  if digits.isEmpty || size ≤ 308 then true
  else if size ≥ 310 then false
  else if exponent ≥ 0 then
    digitsValue digits * Nat.pow 10 exponent.toNat < Nat.pow 2 1024 - Nat.pow 2 970
  else digitsValue digits < (Nat.pow 2 1024 - Nat.pow 2 970) * Nat.pow 10 (-exponent).toNat

end Scan

/-! ## Laying out a text -/

namespace Doc

open Scan

mutual

/-- The value at the start of a text and what follows it; nothing follows a malformed place. The
first argument bounds the number of steps. -/
def value : Nat → List Char → Doc × List Char
  | 0, _ => (.broken, [])
  | fuel + 1, s =>
      match skip s with
      | [] => (.broken, [])
      | '[' :: rest =>
          match skip rest with
          | ']' :: after => (.array [], after)
          | rest =>
              let (items, after) := items fuel rest
              (.array items, after)
      | '\x7b' :: rest =>
          match skip rest with
          | '\x7d' :: after => (.object [], after)
          | rest =>
              let (members, after) := members fuel rest
              (.object members, after)
      | 'n' :: 'u' :: 'l' :: 'l' :: after => (.null, after)
      | 't' :: 'r' :: 'u' :: 'e' :: after => (.bool true, after)
      | 'f' :: 'a' :: 'l' :: 's' :: 'e' :: after => (.bool false, after)
      | c :: rest =>
          if c.toNat = 0x22 then
            match string? rest with
            | some (text, after) => (.string text, after)
            | none => (.broken, [])
          else
            match numeral? (c :: rest) with
            | some (n, after) =>
                let lexeme := (c :: rest).take ((c :: rest).length - after.length)
                (.number (String.ofList lexeme) n.isFinite, after)
            | none => (.broken, [])

/-- The items of an array from the first one on, and what follows its closing bracket. -/
def items : Nat → List Char → List Doc × List Char
  | 0, _ => ([.broken], [])
  | fuel + 1, s =>
      let (item, rest) := value fuel s
      match skip rest with
      | ',' :: rest =>
          let (items, after) := items fuel rest
          (item :: items, after)
      | ']' :: after => ([item], after)
      | _ => ([item, .broken], [])

/-- The members of an object from the first one on, and what follows its closing brace. -/
def members : Nat → List Char → List (Option String × Doc) × List Char
  | 0, _ => ([(none, .broken)], [])
  | fuel + 1, s =>
      match skip s with
      | c :: rest =>
          if c.toNat ≠ 0x22 then ([(none, .broken)], [])
          else
            match string? rest with
            | none => ([(none, .broken)], [])
            | some (name, rest) =>
                match skip rest with
                | ':' :: rest =>
                    let (member, rest) := value fuel rest
                    match skip rest with
                    | ',' :: rest =>
                        let (members, after) := members fuel rest
                        ((name, member) :: members, after)
                    | '\x7d' :: after => ([(name, member)], after)
                    | _ => ([(name, member), (none, .broken)], [])
                | _ => ([(name, .broken)], [])
      | [] => ([(none, .broken)], [])

end

/-- Lays out a text: its value and whether anything but white space follows. -/
def ofText (text : String) : Doc × Bool :=
  let s := text.toList
  let (doc, rest) := value (s.length + 1) s
  (doc, !(skip rest).isEmpty)

mutual

/-- Whether a text is well formed, whether or not it is representable. -/
def isWellFormed : Doc → Bool
  | .broken => false
  | .array items => areWellFormed items
  | .object members => membersAreWellFormed members
  | _ => true

/-- Whether all items of an array are well formed. -/
def areWellFormed : List Doc → Bool
  | [] => true
  | item :: items => isWellFormed item && areWellFormed items

/-- Whether all members of an object are well formed. -/
def membersAreWellFormed : List (Option String × Doc) → Bool
  | [] => true
  | (_, value) :: members => isWellFormed value && membersAreWellFormed members

end

mutual

/-- The value of a text, nested to less than the given depth; none if the text is malformed or not
representable. A member that is repeated keeps its first place and takes its last value. -/
def toJson? (depth : Nat) : Doc → Option Json
  | .null => some .null
  | .bool value => some (.bool value)
  | .number lexeme finite => if finite then some (.number lexeme) else none
  | .string value => value.map .string
  | .array items => if depth ≤ 1 then none else (itemsToJson? (depth - 1) items).map .array
  | .object members =>
      if depth ≤ 1 then none else (membersToJson? (depth - 1) members []).map .object
  | .broken => none

/-- The values of the items of an array. -/
def itemsToJson? (depth : Nat) : List Doc → Option (List Json)
  | [] => some []
  | item :: items =>
      match toJson? depth item, itemsToJson? depth items with
      | some v, some vs => some (v :: vs)
      | _, _ => none

/-- The members of an object, added to those read before. -/
def membersToJson? (depth : Nat) : List (Option String × Doc) → List (String × Json) →
    Option (List (String × Json))
  | [], done => some done
  | (name, value) :: members, done =>
      match name, toJson? depth value with
      | some name, some v => membersToJson? depth members (put done name v)
      | _, _ => none

end

mutual

/-- The layout of a value. -/
def ofJson : Json → Doc
  | .null => .null
  | .bool value => .bool value
  | .number lexeme => .number lexeme true
  | .string value => .string (some value)
  | .array items => .array (ofItems items)
  | .object members => .object (ofMembers members)

/-- The layout of the items of an array. -/
def ofItems : List Json → List Doc
  | [] => []
  | item :: items => ofJson item :: ofItems items

/-- The layout of the members of an object. -/
def ofMembers : List (String × Json) → List (Option String × Doc)
  | [] => []
  | (name, value) :: members => (some name, ofJson value) :: ofMembers members

end

end Doc

/-- How deeply the values of a text may be nested, with one level to spare. -/
def maxDepth : Nat := 128

/-- The value that a text denotes. -/
def ofText? (text : String) : Option Json :=
  match Doc.ofText text with
  | (doc, false) => doc.toJson? maxDepth
  | (_, true) => none

end TextToSql.Json
