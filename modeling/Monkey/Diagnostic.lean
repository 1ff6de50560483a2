import Monkey.Span

/-!
# Diagnostics

A diagnostic reports one problem at one place. It is made from a code, a message and a span, and
taken to stand on the first line of an unnamed text until it is located in its source.
-/

namespace Monkey

/-- A report of one problem. -/
structure Diagnostic where
  /-- The version of the layout, which the JSON form of the diagnostic states. -/
  version : UInt32
  code : String
  message : String
  span : Span
  /-- The name of the text that the span points into. -/
  file : String
  /-- The line of the span's start, counted from 1. -/
  line : Nat
  /-- The column of the span's start, counted from 1. -/
  column : Nat
  /-- How many characters are marked on that line. -/
  length : Nat
  /-- The text of that line. -/
  snippet : String
  /-- What stands beside the mark. -/
  label : String
  help : Option String
deriving DecidableEq, Repr

namespace Diagnostic

/-- The version of the layout that diagnostics are made in. -/
def schemaVersion : UInt32 := 1

/-- The code of a file that cannot be read. -/
def unreadableFile : String := "MK0001"

/-- A diagnostic that knows only its span: the text is taken to be one unnamed line. -/
def ofSpan (code message : String) (span : Span) : Diagnostic where
  version := schemaVersion
  code := code
  message := message
  span := span
  file := "<input>"
  line := 1
  column := span.start + 1
  length := span.length
  snippet := ""
  label := ""
  help := none

/-- The diagnostic under the name of a file. -/
def inFile (d : Diagnostic) (file : String) : Diagnostic := { d with file := file }

/-- The diagnostic with a text beside its mark. -/
def labelled (d : Diagnostic) (label : String) : Diagnostic := { d with label := label }

/-- The diagnostic with a hint. -/
def hinting (d : Diagnostic) (help : String) : Diagnostic := { d with help := some help }

end Diagnostic

/-- A position in a text: the line it is on, counted from 1, and the offset where that line
begins. -/
structure Place where
  line : Nat
  lineStart : Nat
deriving DecidableEq, Repr

namespace Place

/-- The position after the given characters of a text. -/
def after (before : List Char) : Place where
  line := 1 + before.count '\n'
  lineStart := before.length - (before.reverse.takeWhile (· != '\n')).length

/-- The line of a text that begins at an offset, without its line break. -/
def lineAt (text : List Char) (lineStart : Nat) : List Char :=
  (text.drop lineStart).takeWhile (· != '\n')

end Place

/-- The diagnostic located in its source. The mark never runs past the line, but it is at least one
character long, so that the end of a text can be marked. -/
def Diagnostic.locate (d : Diagnostic) (source : String) : Diagnostic :=
  let text := source.toList
  let place := Place.after (text.take d.span.start)
  let snippet := Place.lineAt text place.lineStart
  let column := d.span.start - place.lineStart + 1
  { d with
    line := place.line
    column := column
    length := max 1 (min d.span.length (snippet.length - (column - 1)))
    snippet := String.ofList snippet }

end Monkey
