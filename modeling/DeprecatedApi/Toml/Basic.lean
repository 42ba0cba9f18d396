import DeprecatedApi.Assoc

/-!
# TOML values

A TOML document is a table of named values. Tables come into being in several ways,
and how they did decides how they may grow later.

* `Toml.Origin`, `Toml.Value`, `Toml.Table`: values.
* `Toml.Table.addDotted`: a key with its value, in a table.
* `Toml.Table.openTable`, `Toml.Table.pushTable`, `Toml.Table.addAt`: the effect of
  table headers, array headers and of keys below them.
-/

namespace DeprecatedApi

namespace Toml

/-- How a table came into being. -/
inductive Origin where
  /-- In braces; nothing may be added. -/
  | inline
  /-- By a header of its own. -/
  | header
  /-- On the way of another table's header. -/
  | implied
  /-- On the way of a dotted key. -/
  | dotted
  deriving DecidableEq, Repr

/-- A TOML value. -/
inductive Value where
  | string (text : String)
  /-- A number or a truth value, as written. -/
  | literal (word : String)
  /-- A date, a time of day, or both, as written. -/
  | moment (word : String)
  | array (items : List Value)
  | table (origin : Origin) (entries : List (String × Value))
  /-- An array of tables, made by array headers. -/
  | tables (elements : List (List (String × Value)))

/-- Names with their values. -/
abbrev Table := List (String × Value)

namespace Table

/-- Changes the last of some tables. -/
def changeLast (change : Table → Option Table) : List Table → Option (List Table)
  | [] => none
  | [last] => (change last).map fun table => [table]
  | table :: rest => (changeLast change rest).map (table :: ·)

/-- Adds a value under a dotted key. The tables on the way are made if they are
missing. A key may go through tables that have no header of their own, and through
the last table of an array, but it ends in a table that dotted keys made. -/
def addDotted (value : Value) : List String → Table → Option Table
  | [], _ => none
  | [name], table => if (table.lookup name).isSome then none else some (table ++ [(name, value)])
  | name :: rest, table =>
    match table.lookup name with
    | none => (addDotted value rest []).map fun inner => table ++ [(name, .table .dotted inner)]
    | some (.table .dotted inner) =>
      (addDotted value rest inner).map fun inner => Assoc.set name (.table .dotted inner) table
    | some (.table .implied inner) =>
      if rest.length ≤ 1 then none
      else
        (addDotted value rest inner).map fun inner =>
          Assoc.set name (.table .implied inner) table
    | some (.tables elements) =>
      if rest.length ≤ 1 then none
      else
        (changeLast (addDotted value rest) elements).map fun elements =>
          Assoc.set name (.tables elements) table
    | some _ => none

/-- Changes what a header names. The tables on the way are made if they are missing;
of an array of tables, the last is on the way. -/
def changeAt (change : Option Value → Option Value) : List String → Table → Option Table
  | [], _ => none
  | [name], table => (change (table.lookup name)).map fun value => Assoc.set name value table
  | name :: rest, table =>
    match table.lookup name with
    | none => (changeAt change rest []).map fun inner => table ++ [(name, .table .implied inner)]
    | some (.table .inline _) => none
    | some (.table origin inner) =>
      (changeAt change rest inner).map fun inner => Assoc.set name (.table origin inner) table
    | some (.tables elements) =>
      (changeLast (changeAt change rest) elements).map fun elements =>
        Assoc.set name (.tables elements) table
    | some _ => none

/-- The effect of a table header: the table is new, or so far it is only implied. -/
def openTable : List String → Table → Option Table :=
  changeAt fun
    | none => some (.table .header [])
    | some (.table .implied entries) => some (.table .header entries)
    | some _ => none

/-- The effect of an array header: one more table in the array. -/
def pushTable : List String → Table → Option Table :=
  changeAt fun
    | none => some (.tables [[]])
    | some (.tables elements) => some (.tables (elements ++ [[]]))
    | some _ => none

/-- Adds a value under a key below the table that the latest header named; below no
header, keys belong to the document. -/
def addAt (header key : List String) (value : Value) (document : Table) : Option Table :=
  match header with
  | [] => addDotted value key document
  | _ =>
    changeAt
      (fun
        | some (.table origin entries) => (addDotted value key entries).map (.table origin)
        | some (.tables elements) => (changeLast (addDotted value key) elements).map .tables
        | _ => none)
      header document

end Table

end Toml

end DeprecatedApi
