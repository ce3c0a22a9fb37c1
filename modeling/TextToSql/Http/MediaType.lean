/-!
# Media types

Whether a `Content-Type` announces JSON: `application/json`, or a subtype of `application` with the
suffix `+json`, in any letter case and with well-formed parameters.
-/

namespace TextToSql.Http

/-- Whether a character can be part of a token of a media type. -/
def isTokenChar (c : Char) : Bool := c.isAlphanum || "!#$%&'+-.^_`|~".toList.contains c

/-- Whether a character can stand in a quoted value. -/
def isQuotable (c : Char) : Bool := 0x20 ≤ c.toNat && c.toNat < 0x7F

/-- What follows the closing quote of a value whose first character has been taken. -/
def afterQuoted? : List Char → Option (List Char)
  | [] => none
  | c :: rest =>
      if c.toNat = 0x22 then some rest
      else if isQuotable c then afterQuoted? rest
      else none

/-- What follows a named value: its name, an equals sign, and a token or a quoted text. A token ends
at a semicolon or at the end, and is not empty before a semicolon; the first character of a quoted
text belongs to it whatever it is. -/
def afterParameter? (s : List Char) : Option (List Char) :=
  let name := s.takeWhile isTokenChar
  match s.dropWhile isTokenChar with
  | '=' :: value =>
      if name.isEmpty then none
      else
        match value with
        | [] => some []
        | c :: rest =>
            if c.toNat = 0x22 then
              match rest with
              | [] => none
              | d :: rest =>
                  if isQuotable d then (afterQuoted? rest).map fun t => t.dropWhile (· = ' ')
                  else none
            else if isTokenChar c then some (rest.dropWhile isTokenChar)
            else none
  | _ => none

/-- Whether a text is a list of parameters, each behind a semicolon; spaces may stand before a name.
The first argument bounds the number of parameters. -/
def areParameters : Nat → List Char → Bool
  | _, [] => true
  | 0, _ => false
  | fuel + 1, c :: rest =>
      if c = ';' then
        match rest.dropWhile (· = ' ') with
        | [] => true
        | s =>
            match afterParameter? s with
            | some after => areParameters fuel after
            | none => false
      else false

/-- The part of a subtype before its last plus sign, and the suffix behind it; a plus sign at the
start is part of the name. -/
def splitSuffix (subtype : List Char) : List Char × Option (List Char) :=
  match subtype.reverse.span (· ≠ '+') with
  | (suffix, _ :: base) =>
      if base.isEmpty then (subtype, none) else (base.reverse, some suffix.reverse)
  | (_, []) => (subtype, none)

/-- Whether a text is equal to a word in lower case, up to the case of its ASCII letters. -/
def isWord (word : String) (s : List Char) : Bool := s.map Char.toLower == word.toList

/-- Whether a `Content-Type` announces JSON. -/
def announcesJson (contentType : String) : Bool :=
  let s := contentType.toList
  match s.dropWhile isTokenChar with
  | '/' :: rest =>
      let subtype := rest.takeWhile isTokenChar
      let parameters := rest.dropWhile isTokenChar
      let (base, suffix) := splitSuffix subtype
      isWord "application" (s.takeWhile isTokenChar)
        && !subtype.isEmpty
        && areParameters s.length parameters
        && (isWord "json" base || suffix.any (isWord "json"))
  | _ => false

end TextToSql.Http
