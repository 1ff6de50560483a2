import Monkey.Json
import Monkey.Text.Numeral

/-!
# Writing JSON

Two layouts of the same tokens: compact, without any space, and pretty, with one item to a line and
two spaces of indentation for each level. Each writer puts its characters in front of a text that
follows.
-/

namespace Monkey.Json

/-- How a character is written inside a string: quote, backslash and control characters escaped. -/
def escapeChar (c : Char) : List Char :=
  if c = '"' then ['\\', '"']
  else if c = '\\' then ['\\', '\\']
  else if c = '\x08' then ['\\', 'b']
  else if c = '\t' then ['\\', 't']
  else if c = '\n' then ['\\', 'n']
  else if c = '\x0c' then ['\\', 'f']
  else if c = '\r' then ['\\', 'r']
  else if c.toNat < 0x20 then
    ['\\', 'u', '0', '0', Nat.digitChar (c.toNat / 16), Nat.digitChar (c.toNat % 16)]
  else [c]

/-- A string between quotes, before `tail`. -/
def writeString (value : String) (tail : List Char) : List Char :=
  '"' :: value.toList.flatMap escapeChar ++ '"' :: tail

/-- A value that holds no other value; arrays and objects are written by the layouts. -/
def writeScalar (tail : List Char) : Json → List Char
  | .bool true => 't' :: 'r' :: 'u' :: 'e' :: tail
  | .bool false => 'f' :: 'a' :: 'l' :: 's' :: 'e' :: tail
  | .integer value => (Numeral.ofInt value).toList ++ tail
  | .decimal text => text.toList ++ tail
  | .string value => writeString value tail
  | _ => 'n' :: 'u' :: 'l' :: 'l' :: tail

mutual

/-- The compact layout of a value, before `tail`. -/
def writeCompact (tail : List Char) : Json → List Char
  | .array items => '[' :: writeCompactItems (']' :: tail) items
  | .object members => '\x7b' :: writeCompactMembers ('\x7d' :: tail) members
  | scalar => writeScalar tail scalar

/-- The items of an array, separated by commas, before `tail`. -/
def writeCompactItems (tail : List Char) : List Json → List Char
  | [] => tail
  | item :: others => writeCompact (writeCompactMoreItems tail others) item

/-- The items of an array after the first one. -/
def writeCompactMoreItems (tail : List Char) : List Json → List Char
  | [] => tail
  | item :: others => ',' :: writeCompact (writeCompactMoreItems tail others) item

/-- The members of an object, separated by commas, before `tail`. -/
def writeCompactMembers (tail : List Char) : List (String × Json) → List Char
  | [] => tail
  | (key, value) :: others =>
    writeString key (':' :: writeCompact (writeCompactMoreMembers tail others) value)

/-- The members of an object after the first one. -/
def writeCompactMoreMembers (tail : List Char) : List (String × Json) → List Char
  | [] => tail
  | (key, value) :: others =>
    ',' :: writeString key (':' :: writeCompact (writeCompactMoreMembers tail others) value)

end

/-- A line break and the indentation of a level, before `tail`. -/
def newLine (level : Nat) (tail : List Char) : List Char :=
  '\n' :: List.replicate (2 * level) ' ' ++ tail

mutual

/-- The pretty layout of a value that begins on a line of the given level, before `tail`. -/
def writePretty (level : Nat) (tail : List Char) : Json → List Char
  | .array [] => '[' :: ']' :: tail
  | .array (item :: others) =>
    '[' :: newLine (level + 1)
      (writePretty (level + 1) (writePrettyMoreItems level tail others) item)
  | .object [] => '\x7b' :: '\x7d' :: tail
  | .object ((key, value) :: others) =>
    '\x7b' :: newLine (level + 1) (writeString key
      (':' :: ' ' :: writePretty (level + 1) (writePrettyMoreMembers level tail others) value))
  | scalar => writeScalar tail scalar

/-- The items of an array after the first one, and the end of the array. -/
def writePrettyMoreItems (level : Nat) (tail : List Char) : List Json → List Char
  | [] => newLine level (']' :: tail)
  | item :: others =>
    ',' :: newLine (level + 1)
      (writePretty (level + 1) (writePrettyMoreItems level tail others) item)

/-- The members of an object after the first one, and the end of the object. -/
def writePrettyMoreMembers (level : Nat) (tail : List Char) : List (String × Json) → List Char
  | [] => newLine level ('\x7d' :: tail)
  | (key, value) :: others =>
    ',' :: newLine (level + 1) (writeString key
      (':' :: ' ' :: writePretty (level + 1) (writePrettyMoreMembers level tail others) value))

end

/-- The value on one line, without spaces. -/
def compact (j : Json) : String := String.ofList (j.writeCompact [])

/-- The value over several lines. -/
def pretty (j : Json) : String := String.ofList (j.writePretty 0 [])

end Monkey.Json
