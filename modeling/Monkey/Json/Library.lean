import Monkey.Json.Number
import Monkey.Kind

/-!
# The library for JSON

The program leaves JSON to a library, which writes values as texts and reads them, and to codecs
that are made for the types of values from their declarations. Neither is part of the program, so
all that is known of them here is what they can be asked for.
-/

namespace Monkey

/-- How the values of a type are written as JSON and read from it. -/
structure Codec (α : Type) where
  encode : α → Json
  decode? : Json → Option α

/-- A library for JSON, with a codec for each kind of value. -/
structure JsonLibrary where
  codec (k : Kind) : Codec k.Value
  /-- Whether the codecs take a value for no content at all. -/
  isNoContent : Json → Bool
  /-- Whether there is room for a number. -/
  takes : Json.Number → Bool
  /-- How deep the arrays and objects of a text may be nested, if there is a limit. -/
  limit : Option Nat
  /-- The value that a text holds, if it holds one and nothing else. -/
  read? : String → Option Json
  /-- The value over several lines, or what is wrong with it. -/
  pretty : Json → Except String String
  /-- The value without any white space, or what is wrong with it. -/
  compact : Json → Except String String
  /-- The text of an object that is made of texts under names. -/
  record : List (String × String) → String

namespace JsonLibrary

/-- Whether a value is nested no deeper than the library reads. -/
def admits (lib : JsonLibrary) (j : Json) : Bool := lib.limit.all fun limit => j.depth ≤ limit

/-- The JSON for a value of a kind. -/
def encode (lib : JsonLibrary) (k : Kind) (v : k.Value) : Json := (lib.codec k).encode v

/-- The value of a kind that JSON stands for. -/
def decode? (lib : JsonLibrary) (k : Kind) (j : Json) : Option k.Value := (lib.codec k).decode? j

end JsonLibrary

namespace Document

/-- The text of a document. -/
def text (lib : JsonLibrary) (d : Document) : Except String String :=
  lib.pretty (lib.encode .document d)

/-- Reads the text of a document. -/
def ofText? (lib : JsonLibrary) (text : String) : Option Document :=
  (lib.read? text).bind (lib.decode? .document)

end Document

namespace Diagnostic

/-- The text of a diagnostic over several lines. -/
def text (lib : JsonLibrary) (d : Diagnostic) : Except String String :=
  lib.pretty (lib.encode .diagnostic d)

/-- The text of a diagnostic without white space. -/
def compactText (lib : JsonLibrary) (d : Diagnostic) : Except String String :=
  lib.compact (lib.encode .diagnostic d)

/-- Reads the text of a diagnostic. -/
def ofText? (lib : JsonLibrary) (text : String) : Option Diagnostic :=
  (lib.read? text).bind (lib.decode? .diagnostic)

end Diagnostic

end Monkey
