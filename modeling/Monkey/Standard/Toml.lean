/-!
# TOML values

The values of TOML and the statements that a document is made of. A table remembers how it was
written, because that decides what later statements may add to it.
-/

namespace Monkey

/-- How a table was written. -/
inductive TableForm where
  /-- Between braces, where it is complete. -/
  | inline
  /-- Under a header of its own. -/
  | header
  /-- By dotted keys that name what is in it. -/
  | dotted
  /-- Only by a header of a table inside it. -/
  | implied
deriving DecidableEq, Repr

/-- A TOML value. -/
inductive Toml where
  | string (value : String)
  | integer (value : Int64)
  | float (text : String)
  | boolean (value : Bool)
  | dateTime (text : String)
  | array (items : List Toml)
  | table (form : TableForm) (entries : List (String × Toml))
  /-- The tables under repetitions of one header, the latest first. -/
  | tables (items : List (List (String × Toml)))

namespace Toml

instance : Inhabited Toml := ⟨.boolean false⟩

/-- A dotted key: the tables on the way, from the outside inwards, and a name in the last one. -/
structure Key where
  path : List String
  name : String
deriving DecidableEq, Repr, Inhabited

/-- A statement of a document. -/
inductive Statement where
  /-- What follows goes into the table under a key. -/
  | header (key : Key)
  /-- What follows goes into a new table, the next one under a key. -/
  | nextHeader (key : Key)
  /-- A value under a key. -/
  | entry (key : Key) (value : Toml)

end Toml

end Monkey
