import Monkey.Standard.Toml

/-!
# TOML tables

Builds the table that the statements of a document describe. A document is in error if it names
something twice: a name in one table, a table by two headers, or a table both by a header and by
dotted keys; what stands between braces or brackets is complete.
-/

namespace Monkey.Toml

/-- The names of a table with what is under them. -/
abbrev Entries := List (String × Toml)

/-- Changes what is under a name; `none` if the change cannot be made. -/
def alter (name : String) (change : Option Toml → Option Toml) : Entries → Option Entries
  | [] => (change none).map fun value => [(name, value)]
  | (n, value) :: others =>
    if n = name then (change (some value)).map fun value' => (n, value') :: others
    else (alter name change others).map ((n, value) :: ·)

/-- Puts a value under a name that has none yet. -/
def define (name : String) (value : Toml) : Entries → Option Entries :=
  alter name fun
    | none => some value
    | some _ => none

/-- Changes the table at the end of a header's path. Tables that are not there are implied. -/
def followHeader (change : Entries → Option Entries) : List String → Entries → Option Entries
  | [], entries => change entries
  | name :: path, entries =>
    entries |> alter name fun
      | none => (followHeader change path []).map (.table .implied)
      | some (.table .inline _) => none
      | some (.table form inner) => (followHeader change path inner).map (.table form)
      | some (.tables (last :: earlier)) =>
        (followHeader change path last).map fun last' => .tables (last' :: earlier)
      | some _ => none

/-- Makes the table under a header's name, or takes one over that was implied so far. -/
def openTable (name : String) : Entries → Option Entries :=
  alter name fun
    | none => some (.table .header [])
    | some (.table .implied inner) => some (.table .header inner)
    | some _ => none

/-- Makes the next table under a repeated header's name. -/
def openNext (name : String) : Entries → Option Entries :=
  alter name fun
    | none => some (.tables [[]])
    | some (.tables items) => some (.tables ([] :: items))
    | some _ => none

/-- Puts a value under a dotted key. The tables on the way must have no header, and the last one
must be named by dotted keys alone; those that are not there are made. -/
def assign (name : String) (value : Toml) (within : TableForm) :
    List String → Entries → Option Entries
  | [], entries => if within = .implied then none else define name value entries
  | next :: path, entries =>
    entries |> alter next fun
      | none => (assign name value .dotted path []).map (.table .dotted)
      | some (.table .dotted inner) =>
        (assign name value .dotted path inner).map (.table .dotted)
      | some (.table .implied inner) =>
        (assign name value .implied path inner).map (.table .implied)
      | some (.tables (last :: earlier)) =>
        (assign name value .implied path last).map fun last' => .tables (last' :: earlier)
      | some _ => none

/-- A document so far: the whole table, and the path of the header that is in force. -/
structure Draft where
  entries : Entries
  current : List String

/-- Adds a statement to a document. -/
def Draft.add? (d : Draft) : Statement → Option Draft
  | .header key =>
    (followHeader (openTable key.name) key.path d.entries).map (⟨·, key.path ++ [key.name]⟩)
  | .nextHeader key =>
    (followHeader (openNext key.name) key.path d.entries).map (⟨·, key.path ++ [key.name]⟩)
  | .entry key value =>
    (followHeader (assign key.name value .header key.path) d.current d.entries).map
      (⟨·, d.current⟩)

/-- The table that a document describes. -/
def ofStatements? (statements : List Statement) : Option Entries :=
  (statements.foldlM Draft.add? ⟨[], []⟩).map (·.entries)

/-- The table between braces with the given entries. -/
def inline? (entries : List (Key × Toml)) : Option Toml :=
  let add (table : Entries) : Key × Toml → Option Entries
    | (key, value) => assign key.name value .header key.path table
  (entries.foldlM add []).map (.table .inline)

end Monkey.Toml
