import Monkey.Session.Console
import Monkey.Standard.Editor.Backspace
import Monkey.Text.Fields

/-!
# The standard editor

Gets lines from an input that no person types. Nothing is shown meanwhile; backspaces in a line take
effect, and a line that is not text ends the input.
-/

namespace Monkey.Editor

/-- The words for a line that is not text. -/
def notText : String :=
  "Io(Error \x7b kind: InvalidData, message: \"stream did not contain valid UTF-8\" \x7d)"

/-- A line without the carriage return that may stand before its line break. -/
def chomp (line : String) : String :=
  match line.toList.reverse with
  | '\r' :: cs => String.ofList cs.reverse
  | _ => line

/-- The turns for the bytes of lines. What follows the last line break is a line only if it is not
empty; it has no line break, so it keeps a carriage return. -/
def turnsOf : List (List UInt8) → List Turn
  | [] | [[]] => []
  | bytes :: others =>
    match String.fromUTF8? ⟨bytes.toArray⟩ with
    | none => [⟨"", .failed notText⟩]
    | some text =>
      let line := if others.isEmpty then text else chomp text
      ⟨"", .line (Text.applyBackspaces line)⟩ :: turnsOf others

/-- The turns for an input. -/
def turns (input : ByteArray) : List Turn := turnsOf (Text.fieldsOf 10 input.data.toList)

end Monkey.Editor
