import TextToSql.Json.Doc

/-!
# Requests

A request as the caller writes it: a JSON object with the question and the description of the schema.
All members but the question have defaults, unknown members are skipped, and a member that is known
must not be repeated. An array is read too, as the values of the members in their order.

Decoding goes through the text in order and stops at the first fault, which is either a malformed
text or a value of the wrong shape.
-/

namespace TextToSql

open Json

/-- Why a text is not a request: it is malformed, or it has a value of the wrong shape. -/
inductive RequestFault where
  | malformed
  | mismatch
deriving DecidableEq

/-- Two or more tables and the columns that connect them, as the caller writes them. -/
structure RelationshipEntry where
  tables : List String
  joinCondition : List (String × Json)

/-- A question with the description of the schema, as the caller writes it. -/
structure Request where
  query : String
  schema : List (List (String × Json))
  relationships : List RelationshipEntry
  tableAliases : List (String × Json)
  columnAliases : List (String × Json)
  businessMetrics : List (String × Json)
  timePeriods : Option (List (String × Json))

/-! ## Decoding values -/

namespace Decode

/-- A decoder of a value in a text. -/
abbrev Decoder (α : Type) := Doc → Except RequestFault α

/-- The fault of a value whose shape is not the expected one: a scalar is read before its shape is
refused, and may turn out to be malformed. -/
def refuse : Doc → RequestFault
  | .broken => .malformed
  | .number _ false => .malformed
  | .string none => .malformed
  | _ => .mismatch

/-- A text. -/
def text : Decoder String
  | .string (some s) => .ok s
  | doc => .error (refuse doc)

/-- The values of a list, one after the other. -/
def each {α : Type} (item : Decoder α) : List Doc → Except RequestFault (List α)
  | [] => .ok []
  | doc :: docs => do
      let a ← item doc
      let as ← each item docs
      return a :: as

/-- A list. -/
def list {α : Type} (item : Decoder α) : Decoder (List α)
  | .array items => each item items
  | doc => .error (refuse doc)

/-- An object of arbitrary members, whose values may be nested to less than the given depth. -/
def members (depth : Nat) : Decoder (List (String × Json))
  | .object entries =>
      match Doc.membersToJson? depth entries [] with
      | some members => .ok members
      | none => .error .malformed
  | doc => .error (refuse doc)

/-- An object of arbitrary members, or `null` for none. -/
def optionalMembers (depth : Nat) : Decoder (Option (List (String × Json)))
  | .null => .ok none
  | doc => (members depth doc).map some

/-- Decodes a member that has not been seen before. -/
def fresh {α : Type} (seen : Option α) (item : Decoder α) (doc : Doc) :
    Except RequestFault (Option α) :=
  if seen.isSome then .error .mismatch else (item doc).map some

/-- Skips a member that is not known. -/
def skip {α : Type} (doc : Doc) (state : α) : Except RequestFault α :=
  if doc.isWellFormed then .ok state else .error .malformed

/-- Goes through the members of an object, or through the values of an array as the members of the
given names; values in excess make the text malformed. -/
def fields {α : Type} (names : List String) (step : α → String → Decoder α) (start : α) :
    Decoder α
  | .object entries =>
      entries.foldlM (fun state (name, doc) =>
        match name with
        | some name => step state name doc
        | none => .error .malformed) start
  | .array items => do
      let state ← (names.zip items).foldlM (fun state (name, doc) => step state name doc) start
      if names.length < items.length then .error .malformed else .ok state
  | doc => .error (refuse doc)

end Decode

namespace RelationshipEntry

/-- The members of a relationship that have been read so far. -/
structure Draft where
  tables : Option (List String)
  joinCondition : Option (List (String × Json))

/-- Reads one member of a relationship. -/
def Draft.read (draft : Draft) (name : String) (doc : Doc) : Except RequestFault Draft :=
  match name with
  | "tables" => do
      let tables ← Decode.fresh draft.tables (Decode.list Decode.text) doc
      return { draft with tables }
  | "joinCondition" => do
      let joinCondition ← Decode.fresh draft.joinCondition (Decode.members (maxDepth - 4)) doc
      return { draft with joinCondition }
  | _ => Decode.skip doc draft

/-- A relationship; its tables are required. -/
def decode : Decode.Decoder RelationshipEntry := fun doc => do
  let draft ← Decode.fields ["tables", "joinCondition"] Draft.read ⟨none, none⟩ doc
  match draft.tables with
  | none => .error .mismatch
  | some tables => .ok ⟨tables, draft.joinCondition.getD []⟩

end RelationshipEntry

namespace Request

/-- The members of a request that have been read so far. -/
structure Draft where
  query : Option String
  schema : Option (List (List (String × Json)))
  relationships : Option (List RelationshipEntry)
  tableAliases : Option (List (String × Json))
  columnAliases : Option (List (String × Json))
  businessMetrics : Option (List (String × Json))
  timePeriods : Option (Option (List (String × Json)))

/-- Reads one member of a request. -/
def Draft.read (draft : Draft) (name : String) (doc : Doc) : Except RequestFault Draft :=
  let valueDepth := maxDepth - 2
  match name with
  | "query" => do
      let query ← Decode.fresh draft.query Decode.text doc
      return { draft with query }
  | "schema" => do
      let schema ← Decode.fresh draft.schema (Decode.list (Decode.members (maxDepth - 3))) doc
      return { draft with schema }
  | "relationships" => do
      let relationships ←
        Decode.fresh draft.relationships (Decode.list RelationshipEntry.decode) doc
      return { draft with relationships }
  | "tableAliases" => do
      let tableAliases ← Decode.fresh draft.tableAliases (Decode.members valueDepth) doc
      return { draft with tableAliases }
  | "columnAliases" => do
      let columnAliases ← Decode.fresh draft.columnAliases (Decode.members valueDepth) doc
      return { draft with columnAliases }
  | "businessMetrics" => do
      let businessMetrics ← Decode.fresh draft.businessMetrics (Decode.members valueDepth) doc
      return { draft with businessMetrics }
  | "timePeriods" => do
      let timePeriods ← Decode.fresh draft.timePeriods (Decode.optionalMembers valueDepth) doc
      return { draft with timePeriods }
  | _ => Decode.skip doc draft

/-- The members of a request in the order in which an array gives them. -/
def memberNames : List String :=
  ["query", "schema", "relationships", "tableAliases", "columnAliases", "businessMetrics",
   "timePeriods"]

/-- A request; its question is required. -/
def decode : Decode.Decoder Request := fun doc => do
  let draft ← Decode.fields memberNames Draft.read ⟨none, none, none, none, none, none, none⟩ doc
  match draft.query with
  | none => .error .mismatch
  | some query =>
      .ok {
        query
        schema := draft.schema.getD []
        relationships := draft.relationships.getD []
        tableAliases := draft.tableAliases.getD []
        columnAliases := draft.columnAliases.getD []
        businessMetrics := draft.businessMetrics.getD []
        timePeriods := draft.timePeriods.getD none }

/-- Reads a request from a text that holds nothing else. -/
def ofText (text : String) : Except RequestFault Request :=
  match Doc.ofText text with
  | (doc, trailing) => do
      let request ← decode doc
      if trailing then .error .malformed else .ok request

/-- The request that a value describes. -/
def ofJson? (value : Json) : Option Request := (decode (Doc.ofJson value)).toOption

end Request

end TextToSql
