import Monkey.Settings
import Monkey.Standard.Toml.Read

/-!
# Settings from TOML

Reads a layer from a TOML document, as the standard library does. The document may have the sections
and keys of settings and no others, each with a value of its type; a section may also be written as
the array of all its values in their order.
-/

namespace Monkey

namespace Toml

/-- Reads a text. -/
def text? : Toml → Option String
  | .string text => some text
  | _ => none

/-- Reads a truth value. -/
def boolean? : Toml → Option Bool
  | .boolean value => some value
  | _ => none

/-- Reads a number that is not negative. -/
def natural? : Toml → Option Nat
  | .integer n => if 0 ≤ n.toInt then some n.toInt.toNat else none
  | _ => none

/-- Reads a value that may be absent. -/
def optional? {α : Type} (read? : Toml → Option α) : Option Toml → Option (Option α)
  | none => some none
  | some value => (read? value).map some

/-- The values under some names in a table that has no others. -/
def under? (names : List String) (entries : Toml.Entries) : Option (List (Option Toml)) :=
  if entries.all fun entry => names.contains entry.1 then
    some (names.map fun name => entries.lookup name)
  else none

/-- The values of a section under its keys: in a table, or in order in an array, where what is
left over does not count. -/
def section? (keys : List String) : Toml → Option (List (Option Toml))
  | .table _ entries => under? keys entries
  | .array items => if keys.length ≤ items.length then some (items.map some) else none
  | .tables items =>
    if keys.length ≤ items.length then some (items.reverse.map fun t => some (.table .header t))
    else none
  | _ => none

end Toml

/-- Reads the section of evaluation. -/
def InterpreterSettings.ofToml? (t : Toml) : Option InterpreterSettings :=
  match t.section? ["max_call_depth"] with
  | some (depth :: _) => (Toml.optional? Toml.natural? depth).map (⟨·⟩)
  | _ => none

/-- Reads the section of interactive sessions. -/
def SessionSettings.ofToml? (t : Toml) : Option SessionSettings :=
  match t.section? ["prompt", "history", "history_file"] with
  | some (prompt :: history :: historyFile :: _) => do
    let prompt ← Toml.optional? Toml.text? prompt
    let history ← Toml.optional? Toml.boolean? history
    let historyFile ← Toml.optional? Toml.text? historyFile
    return ⟨prompt, history, historyFile.map (⟨·⟩)⟩
  | _ => none

namespace Settings

/-- Reads a layer from the table of a document. -/
def ofToml? (entries : Toml.Entries) : Option Settings :=
  match Toml.under? ["interpreter", "repl"] entries with
  | some [interpreter, session] => do
    let interpreter ← Toml.optional? InterpreterSettings.ofToml? interpreter
    let session ← Toml.optional? SessionSettings.ofToml? session
    return ⟨interpreter, session⟩
  | _ => none

/-- Reads a layer from a text. What is wrong with a text is not told apart. -/
def ofToml (text : String) : Except String Settings :=
  match (Toml.read? text).bind ofToml? with
  | some s => .ok s
  | none => .error "TOML parse error"

end Settings

end Monkey
