import TextToSql.Sql.Printer
import TextToSql.Sql.Grammar
import TextToSql.Text.Numeral

/-!
# Reading statements

A reader of SQL that goes the way of the printer backwards: from a text to its tokens and from the
tokens to a statement tree. Keywords are read in any letter case, identifiers between double quotes, and
an alias also as a plain word. The star of an aggregate is read as its argument.

* `SelectStatement.ofText?` : the statement that a text is, if it is one `SELECT` from end to end.
-/

namespace TextToSql.Sql

/-! ## Names of functions and signs -/

/-- All aggregate functions. -/
def Aggregate.all : List Aggregate := [.count, .sum, .avg, .min, .max]

/-- All spans of time. -/
def TimeGrain.all : List TimeGrain := [.day, .week, .month, .quarter, .year]

/-- All comparisons. -/
def Comparison.all : List Comparison := [.equal, .notEqual, .greater, .less, .atLeast, .atMost]

/-- The aggregate function that a word names, in any letter case. -/
def Aggregate.ofWord? (w : String) : Option Aggregate :=
  Aggregate.all.find? fun function => Form.isKeyword function.keyword (.word w)

/-- The span of time with a name. -/
def TimeGrain.ofUnit? (unit : String) : Option TimeGrain :=
  TimeGrain.all.find? fun grain => grain.unit = unit

/-- The comparison that a token is the sign of. -/
def Comparison.ofToken? (t : Token) : Option Comparison :=
  Comparison.all.find? fun op => t = .symbol op.sign

/-- The text that a search pattern looks for: what stands between a `%` at either end. -/
def needle? (pattern : String) : Option String :=
  match pattern.toList with
  | '%' :: rest => if rest.getLast? = some '%' then some (String.ofList rest.dropLast) else none
  | _ => none

/-! ## Parsers -/

/-- Reads a value from the start of a list of tokens and leaves the tokens behind it. -/
abbrev Parser (α : Type) := StateT (List Token) Option α

namespace Parser

variable {α : Type}

/-- Reads a token that stands for a value. -/
def token (value? : Token → Option α) : Parser α
  | [] => none
  | t :: ts => (value? t).map fun a => (a, ts)

/-- Takes the next token if it is of some kind, and tells whether it was. -/
def next? (accepts : Token → Bool) : Parser Bool
  | [] => some (false, [])
  | t :: ts => if accepts t then some (true, ts) else some (false, t :: ts)

/-- Reads a token of some kind. -/
def skip (accepts : Token → Bool) : Parser Unit := token fun t => if accepts t then some () else none

/-- Whether a token is the given symbol. -/
def isSymbol (s : String) (t : Token) : Bool := t = .symbol s

/-- Reads a keyword. -/
def keyword (k : String) : Parser Unit := skip (Form.isKeyword k)

/-- Reads a symbol. -/
def symbol (s : String) : Parser Unit := skip (isSymbol s)

/-- Reads a quoted name. -/
def name : Parser String :=
  token fun
    | .name s => some s
    | _ => none

/-- Reads a name that is announced by `AS`: a quoted name or a plain word. -/
def resultName : Parser String :=
  token fun
    | .name s => some s
    | .word s => some s
    | _ => none

/-- Reads a text literal. -/
def text : Parser String :=
  token fun
    | .text s => some s
    | _ => none

/-- Reads a natural number. -/
def natural : Parser Nat :=
  token fun
    | .number digits => Text.numeral? digits.toList
    | _ => none

/-- Reads one item or more, with a separator between them, at most as many as given. -/
def separated (separator : Token → Bool) (item : Parser α) : Nat → Parser (List α)
  | 0 => failure
  | bound + 1 => do
      let a ← item
      if ← next? separator then
        let as ← separated separator item bound
        return a :: as
      else return [a]

/-- Reads items that are each announced by a token, at most as many as given. -/
def announced (start : Token → Bool) (item : Parser α) : Nat → Parser (List α)
  | 0 => return []
  | bound + 1 => do
      if ← next? start then
        let a ← item
        let as ← announced start item bound
        return a :: as
      else return []

/-- Reads what a bounded parser reads, bounded by the number of tokens. -/
def bounded (p : Nat → Parser α) : Parser α := fun ts => p (ts.length + 1) ts

/-- Reads a list with commas. -/
def commaList (item : Parser α) : Parser (List α) := bounded (separated (isSymbol ",") item)

/-- Reads a list with `AND`. -/
def andList (item : Parser α) : Parser (List α) := bounded (separated (Form.isKeyword "AND") item)

/-- Reads keywords in a row. -/
def keywords : List String → Parser Unit
  | [] => return ()
  | k :: ks => do
      keyword k
      keywords ks

/-- Reads a clause that may be left out: a keyword, more keywords, and what they announce. -/
def clause (k : String) (more : List String) (body : Parser α) : Parser (Option α) := do
  if ← next? (Form.isKeyword k) then
    keywords more
    let a ← body
    return some a
  else return none

/-! ## The phrases of a statement -/

/-- Reads a column, alone or behind its table and a point. -/
def column : Parser ColumnRef := do
  let first ← name
  if ← next? (isSymbol ".") then
    let second ← name
    return .of first second
  else return ⟨none, first⟩

/-- Reads a column between parentheses. -/
def columnArgument : Parser ColumnRef := do
  symbol "("
  let ref ← column
  symbol ")"
  return ref

/-- Reads the name of a span of time and a column between parentheses. -/
def truncation : Parser Expr := do
  symbol "("
  let unit ← text
  symbol ","
  let ref ← column
  symbol ")"
  match TimeGrain.ofUnit? unit with
  | some grain => return .truncated grain ref
  | none => failure

/-- Reads an expression. -/
def expr : Parser Expr
  | .number digits :: ts => some (.number digits, ts)
  | .text value :: ts => some (.text value, ts)
  | .symbol s :: ts => if s = "*" then some (.star, ts) else none
  | .name table :: .symbol "." :: .symbol "*" :: ts => some (.tableStar table, ts)
  | .name s :: ts => (column.run (.name s :: ts)).map fun (ref, ts) => (.column ref, ts)
  | .word f :: ts =>
      match Aggregate.ofWord? f with
      | some function =>
          match ts with
          | .symbol "(" :: t :: args =>
              if Form.isKeyword "DISTINCT" t then
                (expr args).bind fun (argument, ts) =>
                  ((symbol ")").run ts).map fun (_, ts) => (.aggregate function true argument, ts)
              else
                (expr (t :: args)).bind fun (argument, ts) =>
                  ((symbol ")").run ts).map fun (_, ts) => (.aggregate function false argument, ts)
          | _ => none
      | none =>
          if Form.isKeyword "DATE" (.word f) then
            (columnArgument.run ts).map fun (ref, ts) => (.truncated .day ref, ts)
          else if Form.isKeyword "DATE_TRUNC" (.word f) then truncation.run ts
          else none
  | [] => none
termination_by structural ts => ts

/-- Reads a date: a text literal with its type. -/
def date : Parser String := do
  let value ← text
  symbol "::"
  keyword "DATE"
  return value

/-- Reads the rest of a range of dates. -/
def range (ref : ColumnRef) : Parser Condition := do
  let first ← date
  keyword "AND"
  let last ← date
  return .between ref first last

/-- Reads the pattern of a search. -/
def search (ref : ColumnRef) : Parser Condition := do
  let pattern ← text
  match needle? pattern with
  | some needle => return .contains ref needle
  | none => failure

/-- Reads the rest of a comparison. -/
def comparison (left : Expr) : Parser Condition := do
  let op ← token Comparison.ofToken?
  let right ← expr
  return .compare left op right

/-- Reads a condition: a test of a column by a keyword, or a comparison. -/
def condition : Parser Condition := do
  let left ← expr
  match left with
  | .column ref =>
      if ← next? (Form.isKeyword "BETWEEN") then range ref
      else if ← next? (Form.isKeyword "ILIKE") then search ref
      else comparison left
  | _ => comparison left

/-- Reads a predicate: conditions with `AND` between them. -/
def predicate : Parser Predicate := do
  let conditions ← andList condition
  match Predicate.conjoin (conditions.map .atom) with
  | some p => return p
  | none => failure

/-- Reads an item of the projection. -/
def item : Parser SelectItem := do
  let value ← expr
  if ← next? (Form.isKeyword "AS") then
    let name ← resultName
    return ⟨value, some name⟩
  else return ⟨value, none⟩

/-- Reads two columns that have to be equal. -/
def equation : Parser (ColumnRef × ColumnRef) := do
  let left ← column
  symbol "="
  let right ← column
  return (left, right)

/-- Reads a joined table with its condition. -/
def join : Parser JoinClause := do
  let table ← name
  keyword "ON"
  let on ← andList equation
  return ⟨table, on⟩

/-- Reads a direction of sorting. -/
def direction : Parser SortDirection := do
  if ← next? (Form.isKeyword "DESC") then return .descending
  keyword "ASC"
  return .ascending

/-- Reads a sort key. -/
def orderKey : Parser OrderKey := do
  let value ← expr
  let order ← direction
  return ⟨value, order⟩

/-- Reads a statement. -/
def select : Parser SelectStatement := do
  keyword "SELECT"
  let projection ← commaList item
  keyword "FROM"
  let source ← name
  let joins ← bounded (announced (Form.isKeyword "JOIN") join)
  let filter ← clause "WHERE" [] predicate
  let groupBy ← clause "GROUP" ["BY"] (commaList expr)
  let having ← clause "HAVING" [] predicate
  let orderBy ← clause "ORDER" ["BY"] (commaList orderKey)
  let limit ← clause "LIMIT" [] natural
  return {
    projection, source, joins, filter, having, limit
    groupBy := groupBy.getD []
    orderBy := orderBy.getD [] }

end Parser

/-- The statement that a text is; none if the text is anything else than one `SELECT` from its first
token to its last. -/
def SelectStatement.ofText? (sql : String) : Option SelectStatement :=
  (Token.ofText? sql).bind fun ts =>
    match Parser.select.run ts with
    | some (s, []) => some s
    | _ => none

end TextToSql.Sql
