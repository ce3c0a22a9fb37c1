import TextToSql.Settings.Toml.Scalar

/-!
# Settings files

A settings file is written in TOML: keys with values, under headers that name the table they belong to.
A key, a table and the items of a list of tables are each declared once, so a `Draft` remembers beside
the values in which way each place has been declared.
-/

namespace TextToSql.Settings

open Toml

/-! ## Declaring places -/

/-- A settings file as far as it has been read: its values, the places that have been given a value,
the tables with a header, the tables that dotted keys made, and the lists of tables. -/
structure Draft where
  root : Value
  assigned : List (List String)
  headed : List (List String)
  dotted : List (List String)
  lists : List (List String)

namespace Draft

/-- The draft of an empty file. -/
def empty : Draft := ⟨.table [], [], [], [], []⟩

/-- Changes the value in a place. A place inside a list of tables is one of its last table. -/
def change (f : Option Value → Value) : List String → Option Value → Value
  | [], value => f value
  | key :: keys, some (.list items) =>
      let last := (items.getLast?.map Value.entries).getD []
      let value := change f keys (Entries.find? key last)
      .list (items.dropLast ++ [.table (Entries.put key value last)])
  | key :: keys, value =>
      let entries := (value.map Value.entries).getD []
      .table (Entries.put key (change f keys (Entries.find? key entries)) entries)

/-- Whether there is something in a place. -/
def isUsed (place : List String) (draft : Draft) : Bool :=
  [draft.assigned, draft.headed, draft.dotted, draft.lists].any fun places =>
    places.any place.isPrefixOf

/-- The places on the way to a place, itself left out, that are longer than some other place. -/
def between (start place : List String) : List (List String) :=
  (List.range (place.length - start.length)).tail.map fun n => place.take (start.length + n)

/-- Gives a key of a table its value. -/
def assign (table key : List String) (value : Value) (draft : Draft) : Option Draft :=
  let place := table ++ key
  let parents := between table place
  if draft.isUsed place
      || parents.any (fun p => draft.assigned.contains p || draft.headed.contains p
        || draft.lists.contains p) then none
  else
    some { draft with
      root := change (fun _ => value) place draft.root
      assigned := place :: draft.assigned
      dotted := parents ++ draft.dotted }

/-- Whether a value stands on the way to a place. -/
def isBarred (place : List String) (draft : Draft) : Bool :=
  (between [] place).any draft.assigned.contains

/-- Declares a table by a header. -/
def head (table : List String) (draft : Draft) : Option Draft :=
  if draft.isBarred table
      || [draft.assigned, draft.headed, draft.dotted, draft.lists].any (·.contains table) then none
  else
    some { draft with
      root := change (fun value => value.getD (.table [])) table draft.root
      headed := table :: draft.headed }

/-- Adds a table to a list of tables. What has been declared inside the table before it no longer
counts. -/
def append (table : List String) (draft : Draft) : Option Draft :=
  if draft.isBarred table || (draft.isUsed table && !draft.lists.contains table) then none
  else
    let outside (places : List (List String)) : List (List String) :=
      places.filter fun p => !table.isPrefixOf p
    some {
      root := change (fun
        | some (.list items) => .list (items ++ [.table []])
        | _ => .list [.table []]) table draft.root
      assigned := outside draft.assigned
      headed := outside draft.headed
      dotted := outside draft.dotted
      lists := table :: outside draft.lists }

end Draft

namespace Toml

/-! ## Values -/

/-- What follows blank space, line breaks and comments. The first argument bounds the number of
steps. -/
def skipLines : Nat → List Char → List Char
  | 0, s => s
  | bound + 1, s =>
      match s.dropWhile fun c => isBlank c || c = '\n' with
      | '#' :: rest => skipLines bound (rest.dropWhile (· ≠ '\n'))
      | s => s

mutual

/-- A value, and what follows. The first argument bounds the number of steps. -/
def value? : Nat → List Char → Option (Value × List Char)
  | 0, _ => none
  | bound + 1, s =>
      match s with
      | '[' :: rest => (items? bound rest).map fun (items, after) => (.list items, after)
      | '\x7b' :: rest =>
          match skipBlanks rest with
          | '\x7d' :: after => some (.table [], after)
          | rest => (members? bound .empty rest).map fun (draft, after) => (draft.root, after)
      | c :: _ =>
          if c = '"' || c = '\'' then (text? s).map fun (s, after) => (.text s, after)
          else word? s
      | [] => none

/-- The items of a list up to its closing bracket. -/
def items? : Nat → List Char → Option (List Value × List Char)
  | 0, _ => none
  | bound + 1, s =>
      match skipLines s.length s with
      | ']' :: after => some ([], after)
      | s =>
          match value? bound s with
          | none => none
          | some (value, rest) =>
              match skipLines rest.length rest with
              | ']' :: after => some ([value], after)
              | ',' :: rest =>
                  (items? bound rest).map fun (values, after) => (value :: values, after)
              | _ => none

/-- The keys and values of a table in a line up to its closing brace. -/
def members? : Nat → Draft → List Char → Option (Draft × List Char)
  | 0, _, _ => none
  | bound + 1, draft, s =>
      match key? (s.length + 1) s with
      | some (key, '=' :: rest) =>
          match value? bound (skipBlanks rest) with
          | none => none
          | some (value, rest) =>
              match draft.assign [] key value, skipBlanks rest with
              | some draft, '\x7d' :: after => some (draft, after)
              | some draft, ',' :: rest => members? bound draft rest
              | _, _ => none
      | _ => none

end

/-! ## Files -/

/-- What follows the end of a line; a comment may stand before it. -/
def endLine? (s : List Char) : Option (List Char) :=
  let rest := match skipBlanks s with
    | '#' :: rest => rest.dropWhile fun c => !isControl c
    | rest => rest
  match rest with
  | [] => some []
  | '\n' :: rest => some rest
  | _ => none

/-- The line at the start of a text, which begins with a header or a key, in the given table: the table
that is open after it, the draft with what it declares, and what follows. -/
def line? (table : List String) (draft : Draft) (s : List Char) :
    Option (List String × Draft × List Char) :=
  match s with
  | '[' :: '[' :: rest =>
      match key? (rest.length + 1) rest with
      | some (table, ']' :: ']' :: after) => do return (table, ← draft.append table, ← endLine? after)
      | _ => none
  | '[' :: rest =>
      match key? (rest.length + 1) rest with
      | some (table, ']' :: after) => do return (table, ← draft.head table, ← endLine? after)
      | _ => none
  | _ =>
      match key? (s.length + 1) s with
      | some (key, '=' :: rest) => do
          let (value, after) ← value? (rest.length + 1) (skipBlanks rest)
          return (table, ← draft.assign table key value, ← endLine? after)
      | _ => none

/-- Reads the lines of a text in the given table. The first argument bounds their number. -/
def lines? : Nat → List String → Draft → List Char → Option Draft
  | 0, _, _, _ => none
  | bound + 1, table, draft, s =>
      match skipLines (s.length + 1) s with
      | [] => some draft
      | s => do
          let (table, draft, after) ← line? table draft s
          lines? bound table draft after

/-- The text with every line break as a single character. -/
def unifyBreaks : List Char → List Char
  | '\r' :: '\n' :: rest => '\n' :: unifyBreaks rest
  | c :: rest => c :: unifyBreaks rest
  | [] => []

/-- The values in the text of a settings file. -/
def ofText? (text : String) : Option Entries :=
  let s := unifyBreaks text.toList
  (lines? (s.length + 1) [] .empty s).map fun draft => draft.root.entries

end Toml

end TextToSql.Settings
