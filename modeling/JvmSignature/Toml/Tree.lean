import JvmSignature.Data.Datum

/-!
# Tables of TOML

A document fills a tree of tables: by headers, which name a table or one more table of an array, and
by keys of several parts, which make the tables on their way. How a table came about decides whether
it may still grow:

* a table with a header of its own is closed, but for what stands under the header;
* a table that only the headers of others imply may get its header later, once;
* a table that keys of several parts made may get more such keys, but no header.

Every update follows the path of a key, and a path that does not fit the tree leads nowhere.
-/

namespace JvmSignature.Toml

/-- How a table came about. -/
inductive TableOrigin where
  | header
  | implied
  | dotted
  deriving DecidableEq, Repr

/-- What a key holds. -/
inductive Node where
  | value (d : Datum)
  | table (origin : TableOrigin) (entries : List (Text × Node))
  /-- An array of tables, the last one apart: it is the one that grows. -/
  | tables (before : List (List (Text × Node))) (last : List (Text × Node))

/-- The keys of a table and what they hold, in the order in which they came in. -/
abbrev Entries := List (Text × Node)

namespace Entries

/-- The entries with what a key holds changed, or with a new key at the end. -/
def update (key : Text) (f : Option Node → Option Node) : Entries → Option Entries
  | [] => (f none).map fun n => [(key, n)]
  | (k, n) :: rest =>
    if k = key then (f (some n)).map fun n => (k, n) :: rest
    else (update key f rest).map fun rest => (k, n) :: rest

/-- The entries with a new key at the end. -/
def add? (key : Text) (n : Node) (entries : Entries) : Option Entries :=
  entries.update key fun old => match old with
    | none => some n
    | some _ => none

/--
The entries with a new key under the tables of a path, which keys of several parts make. A table
that has a header of its own is not entered, and the last table has to be made by such keys.
-/
def addDotted? (key : Text) (n : Node) : List Text → Entries → Option Entries
  | [], entries => add? key n entries
  | part :: path, entries =>
    entries.update part fun old => match old with
      | none => (addDotted? key n path []).map (.table .dotted)
      | some (.table origin inner) =>
        if origin = .header ∨ (path = [] ∧ origin ≠ .dotted) then none
        else (addDotted? key n path inner).map (.table origin)
      | some (.tables before last) =>
        if path = [] then none else (addDotted? key n path last).map (.tables before)
      | some (.value _) => none

/--
The entries with those of the table at the end of a header path changed. Tables on the way are made
where they are not there; of an array of tables the last one is meant.
-/
def within (f : Entries → Option Entries) : List Text → Entries → Option Entries
  | [], entries => f entries
  | part :: path, entries =>
    entries.update part fun old => match old with
      | none => (within f path []).map (.table .implied)
      | some (.table origin inner) => (within f path inner).map (.table origin)
      | some (.tables before last) => (within f path last).map (.tables before)
      | some (.value _) => none

/-- The entries with a table of its own header; one that was implied so far moves to the end. -/
def openTable? (key : Text) (entries : Entries) : Option Entries :=
  match entries.lookup key with
  | none => some (entries ++ [(key, .table .header [])])
  | some (.table .implied inner) =>
    some (entries.filter (fun e => e.1 ≠ key) ++ [(key, .table .header inner)])
  | some _ => none

/-- The entries with one more table in an array of tables. -/
def openElement? (key : Text) (entries : Entries) : Option Entries :=
  entries.update key fun old => match old with
    | none => some (.tables [] [])
    | some (.tables before last) => some (.tables (before ++ [last]) [])
    | some _ => none

end Entries

/-! ## Finished trees -/

mutual

/-- What a key holds, as data. -/
def Node.datum : Node → Datum
  | .value d => d
  | .table _ entries => .record (fieldsOf entries)
  | .tables before last => .list (recordsOf before ++ [.record (fieldsOf last)])

/-- Entries, as the fields of a record. -/
def fieldsOf : List (Text × Node) → List (Text × Datum)
  | [] => []
  | (key, n) :: rest => (key, n.datum) :: fieldsOf rest

/-- Tables, as records. -/
def recordsOf : List (List (Text × Node)) → List Datum
  | [] => []
  | entries :: rest => .record (fieldsOf entries) :: recordsOf rest

end

end JvmSignature.Toml
