import Monkey.Diagnostic
import Monkey.Text.Column
import Monkey.Text.Numeral

/-!
# Reports of diagnostics

A diagnostic for people: with its line and a mark under the place, or on one line.
-/

namespace Monkey.Diagnostic

/-- The mark under the place, and the label beside it. -/
def mark (d : Diagnostic) : String :=
  if d.length = 0 then ""
  else
    "   | " ++ Text.repeated ' ' (d.column - 1) ++ Text.repeated '^' d.length
      ++ (if d.label.isEmpty then "" else " " ++ d.label) ++ "\n"

/-- The line of the place with the mark under it; nothing if the line is empty or unknown. -/
def excerpt (d : Diagnostic) : String :=
  if d.snippet.isEmpty then ""
  else "   |\n" ++ Text.padLeft 2 (Numeral.ofNat d.line) ++ " | " ++ d.snippet ++ "\n" ++ d.mark

/-- The report for people. -/
def report (d : Diagnostic) : String :=
  "error[" ++ d.code ++ "]: " ++ d.message ++ "\n"
    ++ "  --> " ++ d.file ++ ":" ++ Numeral.ofNat d.line ++ ":" ++ Numeral.ofNat d.column ++ "\n"
    ++ d.excerpt
    ++ (match d.help with
      | none => ""
      | some help => "   = help: " ++ help ++ "\n")

/-- The place and the message on one line. -/
def summary (d : Diagnostic) : String :=
  Numeral.ofNat d.line ++ ":" ++ Numeral.ofNat d.column ++ ": " ++ d.message

end Monkey.Diagnostic
