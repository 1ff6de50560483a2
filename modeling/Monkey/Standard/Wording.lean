import Monkey.Standard.CommandLine
import Monkey.Text.Column

/-!
# Wording

What the program says where there is no command to carry out, and where a run fails.
-/

namespace Monkey

/-- The name and version of the program, or of a verb of it. -/
def versionLine (verb : Option Verb) : String :=
  "monkey" ++ (match verb with
    | none => ""
    | some verb => "-" ++ verb.name) ++ " " ++ version ++ "\n"

/-- What the program is for, or a verb of it. -/
def purpose : Option Verb → String
  | none =>
    "Monkey language interpreter.\n\n"
      ++ "Monkey is a small expression language with first-class functions and closures. This CLI "
      ++ "runs source files, starts an interactive REPL, and dumps parsed programs.\n\n"
      ++ "EXAMPLES:\n"
      ++ "    monkey run main.mk            Run a program\n"
      ++ "    monkey parse main.mk --json   Dump the AST as JSON\n"
      ++ "    monkey repl                   Start interactive REPL\n"
      ++ "    monkey                        Same as 'monkey repl'\n\n"
      ++ "ENVIRONMENT VARIABLES:\n"
      ++ "    MONKEY_JSON            Set to '1' for JSON diagnostics by default\n"
      ++ "    MONKEY_NO_HISTORY      Set to '1' to disable REPL history\n"
      ++ "    MONKEY_PROMPT          Override the REPL prompt\n"
      ++ "    MONKEY_MAX_CALL_DEPTH  Limit nested calls (0 disables the limit)\n"
      ++ "    MONKEY_LOG             Log filter, e.g. 'monkey_runtime=debug'\n"
  | some .run => "Run a Monkey source file\n"
  | some .parse => "Print the parsed form of a Monkey source file\n"
  | some .repl => "Start an interactive REPL\n"

/-- How the arguments are written. -/
def usage : Option Verb → String
  | none => "Usage: monkey [OPTIONS] [COMMAND]\n"
  | some .run => "Usage: monkey run [OPTIONS] <FILE>\n"
  | some .parse => "Usage: monkey parse [OPTIONS] <FILE>\n"
  | some .repl => "Usage: monkey repl [OPTIONS]\n"

/-- What is printed when there is no command to carry out. -/
def Interruption.transcript : Interruption → Transcript
  | .help verb => ⟨.success, purpose verb ++ "\n" ++ usage verb, ""⟩
  | .version verb => ⟨.success, versionLine verb, ""⟩
  | .misuse about => ⟨.misuse, "", "error: invalid argument: " ++ about ++ "\n\n" ++ usage none⟩

/-- A text in which every line but the first is indented. -/
def hang (indent : String) (text : String) : String :=
  ("\n" ++ indent).intercalate (Text.fields '\n' text)

namespace Trouble

/-- The causes, numbered if there are several. -/
def causeLines : List String → String
  | [] => ""
  | [cause] => "    " ++ hang "    " cause ++ "\n"
  | causes =>
    String.join (causes.zipIdx.map fun (cause, i) =>
      Text.padLeft 5 (Numeral.ofNat i) ++ ": " ++ hang "       " cause ++ "\n")

/-- The last words of a run that fails. -/
def lastWords (t : Trouble) : String :=
  "Error: " ++ t.message ++ "\n"
    ++ (if t.causes.isEmpty then "" else "\nCaused by:\n" ++ causeLines t.causes)

end Trouble

end Monkey
