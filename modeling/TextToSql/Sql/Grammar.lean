import TextToSql.Sql.Token

/-!
# A grammar of SQL

What the plain statements of SQL look like, as data: a form says how the tokens of a phrase follow each
other, and phrases can occur inside forms. Reading a form takes the first of two possibilities that
can be read, and as much as it can of what may be left out.
-/

namespace TextToSql.Sql

/-! ## Forms -/

/-- The phrases that can occur inside others. -/
inductive Phrase where
  | query
  | core
  | moreCores
  | source
  | moreJoins
  | expr
  | exprTail
  | operand
  | operandTail
  | value
  | caseTail

/-- What tokens may follow each other: nothing, a token of some kind, a phrase, one form after another,
one of two forms, a list with commas, or a form that does not start with a certain kind of token. -/
inductive Form where
  | nothing
  | token (accepts : Token → Bool)
  | phrase (p : Phrase)
  | both (first second : Form)
  | either (first second : Form)
  | list (item : Form)
  | avoiding (stop : Token → Bool) (form : Form)

/-- Reads the start of a list of tokens: what is left, or none if it cannot be read. -/
abbrev Reader := List Token → Option (List Token)

/-- Reads items with commas between them, at most as many as given. -/
def Reader.commaList (item : Reader) : Nat → Reader
  | 0, _ => none
  | bound + 1, ts =>
      match item ts with
      | some (.symbol "," :: rest) => commaList item bound rest
      | some rest => some rest
      | none => none

namespace Form

/-- Reads a form, given how phrases are read. -/
def read (phrases : Phrase → Reader) : Form → Reader
  | nothing, ts => some ts
  | token _, [] => none
  | token accepts, t :: ts => if accepts t then some ts else none
  | phrase p, ts => phrases p ts
  | both first second, ts => (first.read phrases ts).bind (second.read phrases)
  | either first second, ts =>
      match first.read phrases ts with
      | some rest => some rest
      | none => second.read phrases ts
  | list item, ts => Reader.commaList (item.read phrases) (ts.length + 1) ts
  | avoiding stop form, ts => if ts.head?.any stop then none else form.read phrases ts

/-! ## Ways to build forms -/

/-- Forms one after another. -/
def row : List Form → Form
  | [] => nothing
  | [form] => form
  | form :: forms => both form (row forms)

/-- One of several forms, the first that can be read. -/
def oneOf : List Form → Form
  | [] => token fun _ => false
  | [form] => form
  | form :: forms => either form (oneOf forms)

/-- A form that may be left out. -/
def maybe (form : Form) : Form := either form nothing

/-- Whether a token is a keyword, in any letter case. -/
def isKeyword (k : String) : Token → Bool
  | .word s => s.toList.map Char.toUpper == k.toList
  | _ => false

/-- A keyword. -/
def keyword (k : String) : Form := token (isKeyword k)

/-- Keywords in a row. -/
def keywords (ks : List String) : Form := row (ks.map keyword)

/-- One of several keywords. -/
def anyKeyword (ks : List String) : Form := oneOf (ks.map keyword)

/-- A symbol. -/
def symbol (s : String) : Form := token (· = .symbol s)

/-- One of several symbols. -/
def anySymbol (symbols : List String) : Form := oneOf (symbols.map symbol)

/-- A form between parentheses. -/
def parens (form : Form) : Form := row [symbol "(", form, symbol ")"]

/-- A clause that may be left out: keywords with a form behind them. -/
def clause (ks : List String) (form : Form) : Form := maybe (row [keywords ks, form])

/-- A word, whatever it is. -/
def word : Form := token fun | .word _ => true | _ => false

/-- A text literal. -/
def text : Form := token fun | .text _ => true | _ => false

/-- A number. -/
def number : Form := token fun | .number _ => true | _ => false

/-- A name: a word or a quoted name. -/
def name : Form := token fun | .word _ => true | .name _ => true | _ => false

/-! ## The grammar -/

/-- The words that are no names for a result or a table unless announced by `AS`. -/
def reserved : List String :=
  ["AND", "AS", "ASC", "BETWEEN", "BY", "CROSS", "DESC", "ELSE", "END", "EXCEPT", "FETCH", "FOR",
   "FROM", "FULL", "GROUP", "HAVING", "ILIKE", "IN", "INNER", "INTERSECT", "INTO", "IS", "JOIN",
   "LEFT", "LIKE", "LIMIT", "NATURAL", "NOT", "NULLS", "OFFSET", "ON", "OR", "ORDER", "RETURNING",
   "RIGHT", "SELECT", "SET", "THEN", "UNION", "USING", "VALUES", "WHEN", "WHERE", "WINDOW", "WITH"]

/-- Whether a token is a reserved word. -/
def isReserved (t : Token) : Bool := reserved.any fun k => isKeyword k t

/-- A name for a result or a table. -/
def otherName : Form :=
  oneOf [row [keyword "AS", oneOf [name, text]], avoiding isReserved (oneOf [name, text])]

/-- The parts of a dotted name behind the first one, at most as many as given. -/
def qualifiers : Nat → Form
  | 0 => nothing
  | bound + 1 => maybe (row [symbol ".", name, qualifiers bound])

/-- A name with the names of what it belongs to. -/
def path : Form := row [name, qualifiers 3]

/-- A type, with its size if it has one. -/
def typeName : Form :=
  row [oneOf [keywords ["DOUBLE", "PRECISION"], keywords ["CHARACTER", "VARYING"], word],
    maybe (parens (row [number, maybe (row [symbol ",", number])])),
    maybe (row [anyKeyword ["WITH", "WITHOUT"], keywords ["TIME", "ZONE"]])]

/-- The operators of arithmetic. -/
def arithmetic : Form := anySymbol ["+", "-", "*", "/", "%", "||"]

/-- The operators between two sides of a comparison. -/
def comparing : Form := anySymbol ["=", "<>", "!=", "<=", ">=", "<", ">", "=="]

/-- The arguments of a call. -/
def arguments : Form :=
  oneOf [row [symbol "(", symbol ")"], parens (symbol "*"),
    parens (row [maybe (anyKeyword ["DISTINCT", "ALL"]), list (phrase .expr)])]

/-- An item of a projection. -/
def item : Form :=
  oneOf [symbol "*", avoiding (isKeyword "FROM") (row [phrase .expr, maybe otherName])]

/-- A sort key. -/
def sortKey : Form :=
  row [phrase .expr, maybe (anyKeyword ["ASC", "DESC"]),
    clause ["NULLS"] (anyKeyword ["FIRST", "LAST"])]

/-- A table or a query in the place of one. -/
def factor : Form :=
  oneOf [row [parens (phrase .query), maybe otherName], parens (phrase .source),
    row [path, maybe arguments, maybe otherName]]

/-- The condition of a join. -/
def joinCondition : Form :=
  oneOf [row [keyword "ON", phrase .expr], row [keyword "USING", parens (list name)], nothing]

/-- A table joined to a table. -/
def join : Form :=
  oneOf [row [keywords ["CROSS", "JOIN"], factor],
    row [maybe (keyword "NATURAL"),
      maybe (oneOf [keyword "INNER",
        row [anyKeyword ["LEFT", "RIGHT", "FULL"], maybe (keyword "OUTER")]]),
      keyword "JOIN", factor, joinCondition]]

/-- Rows of values. -/
def rows : Form := row [keyword "VALUES", list (parens (list (phrase .expr)))]

/-- A projection with its source, conditions and groups. -/
def select : Form :=
  row [keyword "SELECT", maybe (anyKeyword ["DISTINCT", "ALL"]),
    oneOf [row [list item, clause ["FROM"] (list (phrase .source))],
      row [keyword "FROM", list (phrase .source)]],
    clause ["WHERE"] (phrase .expr),
    clause ["GROUP", "BY"] (list (phrase .expr)), clause ["HAVING"] (phrase .expr)]

/-- How many rows are wanted and how many are left out. -/
def page : Form :=
  let limit := row [keyword "LIMIT", phrase .expr]
  let offset := row [keyword "OFFSET", phrase .expr, maybe (anyKeyword ["ROW", "ROWS"])]
  oneOf [row [limit, maybe offset], row [offset, maybe limit], nothing]

/-- What is tested about an operand behind a word, with what may follow. -/
def test : Form :=
  oneOf [
    row [keyword "IN", parens (oneOf [phrase .query, list (phrase .expr)]), phrase .exprTail],
    row [keyword "BETWEEN", phrase .operand, keyword "AND", phrase .expr],
    row [anyKeyword ["LIKE", "ILIKE"], phrase .expr]]

/-- The values that start with a keyword. -/
def special : Form :=
  oneOf [
    row [keyword "NOT", phrase .value],
    row [keyword "EXISTS", parens (phrase .query)],
    row [keyword "CASE", oneOf [avoiding (isKeyword "WHEN") (row [phrase .expr, phrase .caseTail]),
      phrase .caseTail]],
    row [keyword "CAST", parens (row [phrase .expr, keyword "AS", typeName])],
    row [keyword "EXTRACT", parens (row [word, keyword "FROM", phrase .expr])],
    row [anyKeyword ["DATE", "TIME", "TIMESTAMP", "INTERVAL"], text]]

/-- The form of each phrase. -/
def ofPhrase : Phrase → Form
  | .query =>
      row [clause ["WITH"] (list (row [name, maybe (parens (list name)), keyword "AS",
          parens (phrase .query)])),
        phrase .core, phrase .moreCores, clause ["ORDER", "BY"] (list sortKey), page]
  | .core => oneOf [parens (phrase .query), rows, select]
  | .moreCores =>
      maybe (row [anyKeyword ["UNION", "EXCEPT", "INTERSECT"], maybe (anyKeyword ["ALL", "DISTINCT"]),
        phrase .core, phrase .moreCores])
  | .source => row [factor, phrase .moreJoins]
  | .moreJoins => maybe (row [join, phrase .moreJoins])
  | .expr => row [phrase .value, phrase .exprTail]
  | .exprTail =>
      maybe (oneOf [
        row [oneOf [arithmetic, comparing, anyKeyword ["AND", "OR"]], phrase .expr],
        row [symbol "::", typeName, phrase .exprTail],
        row [keyword "IS", maybe (keyword "NOT"),
          anyKeyword ["NULL", "TRUE", "FALSE", "UNKNOWN"], phrase .exprTail],
        row [maybe (keyword "NOT"), test]])
  | .operand => row [phrase .value, phrase .operandTail]
  | .operandTail =>
      maybe (oneOf [row [arithmetic, phrase .operand],
        row [symbol "::", typeName, phrase .operandTail]])
  | .value =>
      oneOf [number, text, row [anySymbol ["-", "+"], phrase .value],
        parens (phrase .query), parens (list (phrase .expr)),
        special, row [path, maybe (row [symbol ".", symbol "*"]), maybe arguments]]
  | .caseTail =>
      oneOf [keyword "END",
        row [keyword "WHEN", phrase .expr, keyword "THEN", phrase .expr, phrase .caseTail],
        row [keyword "ELSE", phrase .expr, keyword "END"]]

end Form

/-! ## Reading phrases -/

/-- Reads a phrase. The first argument bounds how deeply phrases are nested. -/
def Phrase.read : Nat → Phrase → Reader
  | 0, _ => fun _ => none
  | depth + 1, p => (Form.ofPhrase p).read (Phrase.read depth)

/-- A depth that is enough to read tokens: between two tokens at most the phrases of each kind are
opened. -/
def Phrase.depthFor (ts : List Token) : Nat := 11 * (ts.length + 1)

/-- Whether tokens have a form from the first to the last. -/
def Form.covers (form : Form) (ts : List Token) : Bool :=
  form.read (Phrase.read (Phrase.depthFor ts)) ts = some []

end TextToSql.Sql
