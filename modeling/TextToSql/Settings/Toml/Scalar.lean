import TextToSql.Json.Doc
import TextToSql.Settings.Value

/-!
# Single values of TOML

Keys, texts, numbers and moments as they are written in TOML. A reader takes the characters from a
certain place on and gives what it has read with the characters behind it.
-/

namespace TextToSql.Settings.Toml

/-! ## Characters -/

/-- Whether a character is blank space within a line. -/
def isBlank (c : Char) : Bool := c = ' ' || c = '\t'

/-- Whether a character is a control character that no text may hold as it stands. -/
def isControl (c : Char) : Bool := (c.toNat < 0x20 && c ≠ '\t') || c.toNat = 0x7F

/-- The text without the blanks it starts with. -/
def skipBlanks (s : List Char) : List Char := s.dropWhile isBlank

/-! ## Texts -/

/-- The character of a number; surrogates and numbers that are too large are none. -/
def charOf? (n : Nat) : Option Char := if n.isValidChar then some (Char.ofNat n) else none

/-- The character of an escape behind its backslash, and what follows. -/
def escape? : List Char → Option (Char × List Char)
  | 'b' :: rest => some ('\x08', rest)
  | 't' :: rest => some ('\t', rest)
  | 'n' :: rest => some ('\n', rest)
  | 'f' :: rest => some ('\x0c', rest)
  | 'r' :: rest => some ('\r', rest)
  | 'u' :: a :: b :: c :: d :: rest =>
      ((Json.Scan.hexCode? a b c d).bind charOf?).map (·, rest)
  | 'U' :: a :: b :: c :: d :: e :: f :: g :: h :: rest =>
      match Json.Scan.hexCode? a b c d, Json.Scan.hexCode? e f g h with
      | some high, some low => (charOf? (0x10000 * high + low)).map (·, rest)
      | _, _ => none
  | c :: rest => if c = '"' || c = '\\' then some (c, rest) else none
  | [] => none

/-- A text between quotes behind the opening one. The first argument bounds the number of steps. -/
def basic? : Nat → List Char → Option (List Char × List Char)
  | 0, _ => none
  | _, [] => none
  | bound + 1, c :: rest =>
      if c = '"' then some ([], rest)
      else if c = '\\' then
        (escape? rest).bind fun (c, rest) => (basic? bound rest).map fun (s, after) => (c :: s, after)
      else if isControl c then none
      else (basic? bound rest).map fun (s, after) => (c :: s, after)

/-- A text between apostrophes behind the opening one; it has no escapes. -/
def literal? : List Char → Option (List Char × List Char)
  | [] => none
  | c :: rest =>
      if c = '\'' then some ([], rest)
      else if isControl c then none
      else (literal? rest).map fun (s, after) => (c :: s, after)

/-- Whether a character goes on in a text of several lines. -/
def inLines (c : Char) : Bool := c = '\n' || !isControl c

/-- What stands behind three quotes that close a text of several lines: one or two further quotes
still belong to the text. -/
def closing (q : Char) (rest : List Char) : List Char × List Char :=
  let further := (rest.take 2).takeWhile (· = q)
  (further, rest.drop further.length)

/-- A text of several lines behind its three opening quotes. A backslash at the end of a line takes
away the line break and the blank space after it. The first argument bounds the number of steps. -/
def basicLines? : Nat → List Char → Option (List Char × List Char)
  | 0, _ => none
  | _, [] => none
  | bound + 1, c :: rest =>
      if c = '"' && rest.take 2 = ['"', '"'] then some (closing c (rest.drop 2))
      else if c = '\\' then
        match skipBlanks rest with
        | '\n' :: after => basicLines? bound (after.dropWhile fun c => isBlank c || c = '\n')
        | _ => (escape? rest).bind fun (c, rest) =>
            (basicLines? bound rest).map fun (s, after) => (c :: s, after)
      else if inLines c then (basicLines? bound rest).map fun (s, after) => (c :: s, after)
      else none

/-- A text of several lines between apostrophes, behind the three opening ones. -/
def literalLines? : List Char → Option (List Char × List Char)
  | [] => none
  | c :: rest =>
      if c = '\'' && rest.take 2 = ['\'', '\''] then some (closing c (rest.drop 2))
      else if inLines c then (literalLines? rest).map fun (s, after) => (c :: s, after)
      else none

/-- The text without the line break that it starts with. -/
def dropBreak : List Char → List Char
  | '\n' :: rest => rest
  | s => s

/-- A text in any of its four written forms. -/
def text? (s : List Char) : Option (String × List Char) :=
  let read := match s with
    | '"' :: '"' :: '"' :: rest => basicLines? (rest.length + 1) (dropBreak rest)
    | '"' :: rest => basic? (rest.length + 1) rest
    | '\'' :: '\'' :: '\'' :: rest => literalLines? (dropBreak rest)
    | '\'' :: rest => literal? rest
    | _ => none
  read.map fun (s, after) => (String.ofList s, after)

/-! ## Keys -/

/-- Whether a character can stand in a key without quotes. -/
def isKeyChar (c : Char) : Bool := c.isAlphanum || c = '_' || c = '-'

/-- A part of a key. -/
def keyPart? (s : List Char) : Option (String × List Char) :=
  match s with
  | '"' :: rest => (basic? (rest.length + 1) rest).map fun (s, after) => (String.ofList s, after)
  | '\'' :: rest => (literal? rest).map fun (s, after) => (String.ofList s, after)
  | _ =>
      let part := s.takeWhile isKeyChar
      if part.isEmpty then none else some (String.ofList part, s.dropWhile isKeyChar)

/-- A key with parts between points; blanks may stand around the parts. The first argument bounds the
number of parts. -/
def key? : Nat → List Char → Option (List String × List Char)
  | 0, _ => none
  | bound + 1, s => do
      let (part, after) ← keyPart? (skipBlanks s)
      match skipBlanks after with
      | '.' :: rest =>
          let (parts, after) ← key? bound rest
          return (part :: parts, after)
      | after => return ([part], after)

/-! ## Numbers and moments -/

/-- The pieces of a text between underscores. -/
def pieces (s : List Char) : List (List Char) :=
  s.foldr (fun c ps =>
    if c = '_' then [] :: ps
    else
      match ps with
      | p :: ps => (c :: p) :: ps
      | [] => [[c]]) [[]]

/-- The digits of a number; single underscores may stand between them. -/
def digits? (isDigit : Char → Bool) (s : List Char) : Option (List Char) :=
  let parts := pieces s
  if parts.all fun p => !p.isEmpty && p.all isDigit then some parts.flatten else none

/-- The number of digits in some base. -/
def numberOf (base : Nat) (digits : List Char) : Nat :=
  digits.foldl (fun n c => base * n + (Json.Scan.hexValue? c).getD 0) 0

/-- A whole number in decimal digits, which starts with a zero only if it is zero. -/
def whole? (s : List Char) : Option (List Char) :=
  (digits? Char.isDigit s).filter fun ds => ds.length = 1 || ds.head? != some '0'

/-- A sign, and what follows. -/
def sign (s : List Char) : Bool × List Char :=
  match s with
  | '-' :: rest => (true, rest)
  | '+' :: rest => (false, rest)
  | _ => (false, s)

/-- A whole number of 64 bits, in decimal digits or in another base. -/
def integer? (s : List Char) : Option Int :=
  let based (base : Nat) (isDigit : Char → Bool) (s : List Char) : Option Int :=
    (digits? isDigit s).map fun ds => Int.ofNat (numberOf base ds)
  let n : Option Int := match s with
    | '0' :: 'x' :: rest => based 16 (fun c => (Json.Scan.hexValue? c).isSome) rest
    | '0' :: 'o' :: rest => based 8 (fun c => '0' ≤ c && c ≤ '7') rest
    | '0' :: 'b' :: rest => based 2 (fun c => c = '0' || c = '1') rest
    | _ =>
        let (negative, s) := sign s
        (whole? s).map fun ds =>
          if negative then -Int.ofNat (numberOf 10 ds) else Int.ofNat (numberOf 10 ds)
  n.filter fun n => Int64.minValue.toInt ≤ n && n ≤ Int64.maxValue.toInt

/-- A decimal fraction: a whole number with digits behind a point, with an exponent, or with both. -/
def decimal? (s : List Char) : Option Decimal := do
  let (negative, s) := sign s
  let isPower (c : Char) : Bool := c = 'e' || c = 'E'
  let mantissa := s.takeWhile fun c => !isPower c
  let power := s.dropWhile fun c => !isPower c
  let whole ← whole? (mantissa.takeWhile (· ≠ '.'))
  let places ← match mantissa.dropWhile (· ≠ '.') with
    | [] => some []
    | _ :: places => digits? Char.isDigit places
  let (lower, shift) ← match power with
    | [] => some (false, 0)
    | _ :: power =>
        let (negative, power) := sign power
        (digits? Char.isDigit power).map fun ds => (negative, numberOf 10 ds)
  if places.isEmpty && power.isEmpty || 400 < shift then none
  else
    let digits := numberOf 10 (whole ++ places)
    if lower then return ⟨negative, digits, places.length + shift⟩
    else return ⟨negative, digits * Nat.pow 10 (shift - places.length), places.length - shift⟩

/-- Whether a text looks as a pattern says, where a hash stands for a digit. -/
def looksLike (pattern : List Char) (s : List Char) : Bool :=
  pattern.length = s.length
    && (pattern.zip s).all fun (p, c) => if p = '#' then c.isDigit else p = c

/-- A date, a time or both, kept as it is written. -/
def moment? (s : List Char) : Option String :=
  if looksLike "####-##-##".toList (s.take 10) || looksLike "##:##:##".toList (s.take 8) then
    some (String.ofList s)
  else none

/-- Whether a character can stand in a value without quotes. -/
def isWordChar (c : Char) : Bool := c.isAlphanum || "+-_.:".toList.contains c

/-- A value without quotes. -/
def word? (s : List Char) : Option (Value × List Char) :=
  let word := s.takeWhile isWordChar
  let value :=
    if word = "true".toList then some (.flag true)
    else if word = "false".toList then some (.flag false)
    else
      ((integer? word).map Value.integer).or (((decimal? word).map Value.decimal).or
        ((moment? word).map Value.text))
  value.map (·, s.dropWhile isWordChar)

end TextToSql.Settings.Toml
