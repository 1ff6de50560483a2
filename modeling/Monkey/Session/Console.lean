import Monkey.Diagnostic.Report
import Monkey.Session
import Monkey.Text.Blank
import Monkey.Text.Column

/-!
# Sessions on a console

What a person sees of a session: lines go in, texts come out. An editor is asked for each line. A
line that names a command is for the session itself; any other line is evaluated. The session is
over when it is told so or when there are no more lines.
-/

namespace Monkey

/-- The version of the program. -/
def version : String := "0.1.0"

/-- A line that is for the session itself. -/
inductive SessionCommand where
  | quit
  | reset
  | help
  | bindings
deriving DecidableEq, Repr

/-- The command with a name. -/
def SessionCommand.ofName? : String → Option SessionCommand
  | ":quit" | ":q" => some .quit
  | ":reset" => some .reset
  | ":help" | ":h" => some .help
  | ":vars" | ":v" => some .bindings
  | _ => none

/-- What asking an editor for a line comes to. -/
inductive Entry where
  | line (text : String)
  /-- A person interrupts. -/
  | interrupted
  /-- There are no more lines. -/
  | over
  /-- No line can be had, in the words of the editor. -/
  | failed (error : String)
deriving DecidableEq, Repr

/-- A line that is asked for: what the editor shows meanwhile, and what that comes to. -/
structure Turn where
  shown : String
  entry : Entry
deriving DecidableEq, Repr

/-- How a session goes on. -/
inductive Progress where
  | goOn (session : Session)
  | ended
  /-- The evaluation ran out of fuel. -/
  | unfinished

/-- What a turn brings about. -/
structure Reply where
  stdout : String
  stderr : String
  /-- The lines that are to be kept. -/
  kept : List String
  next : Progress

/-- What comes of a session: what it prints, which lines are to be kept, and whether it came to an
end. -/
structure Conversation where
  stdout : String
  stderr : String
  kept : List String
  ended : Bool
deriving DecidableEq, Repr

namespace Session

/-- What a session begins with. -/
def greeting : String :=
  "Monkey v" ++ version ++ " REPL\n"
    ++ "Type expressions or statements, or :quit to exit\n"
    ++ "Commands: :quit (or :q), :reset, :help, :vars\n\n"

/-- What a session ends with. -/
def farewell : String := "Goodbye!\n"

/-- The answer to the command for help. -/
def helpText : String :=
  "Monkey REPL Commands:\n"
    ++ "  :quit, :q         Exit the REPL\n"
    ++ "  :reset            Clear all bindings\n"
    ++ "  :help, :h         Show this help message\n"
    ++ "  :vars, :v         List bindings and their values\n"
    ++ "\n"
    ++ "Examples:\n"
    ++ "  >> let x = 42;\n"
    ++ "  >> let double = fn(n) \x7b n * 2 \x7d;\n"
    ++ "  >> double(x)\n"

/-- A line of the table of bindings. -/
def bindingLine (name type value : String) : String :=
  Text.padRight 16 name ++ " " ++ Text.padRight 10 type ++ " " ++ value ++ "\n"

/-- The table of bindings. -/
def bindingTable (bindings : List (String × Value)) : String :=
  if bindings.isEmpty then "No bindings defined.\n"
  else
    bindingLine "name" "type" "value" ++ Text.repeated '-' 40 ++ "\n"
      ++ String.join (bindings.map fun (name, v) => bindingLine name v.type.name v.render)

/-- A value on a line of its own; nothing for null. -/
def valueLine : Value → String
  | .null => ""
  | v => v.render ++ "\n"

/-- The reports of diagnostics, one after the other. -/
def reports (diagnostics : List Diagnostic) : String :=
  String.join (diagnostics.map fun d => d.report ++ "\n")

/-- What a person who interrupts is told. -/
def reminder : String := "^C\nUse :quit or :q to exit\n"

/-- Obeys a command. -/
def obey (s : Session) : SessionCommand → String × Progress
  | .quit => (farewell, .ended)
  | .reset => ("REPL state reset\n", .goOn s.reset)
  | .help => (helpText, .goOn s)
  | .bindings => (bindingTable s.bindings, .goOn s)

/-- Evaluates a line and prints what comes of it. -/
def print (b : Bounds) (s : Session) (line : String) : String × Progress :=
  match s.evalLine b line with
  | (.rejected diagnostics, s) => (reports diagnostics, .goOn s)
  | (.blank, s) => ("", .goOn s)
  | (.value v, s) => (valueLine v, .goOn s)
  | (.outOfFuel, _) => ("", .unfinished)

/-- Answers a line that is not blank. Blanks around a command do not count. The log tells of lines
that are evaluated. -/
def respond (log : Session → String → String) (b : Bounds) (s : Session) (line : String) : Reply :=
  match SessionCommand.ofName? (Text.trim line) with
  | some command =>
    match s.obey command with
    | (output, next) => ⟨output, "", [line], next⟩
  | none =>
    match s.print b line with
    | (output, next) => ⟨output, log s line, [line], next⟩

/-- Takes a turn. A blank line has no answer, and is not kept. -/
def reply (log : Session → String → String) (b : Bounds) (s : Session) (turn : Turn) : Reply :=
  match turn.entry with
  | .line text =>
    if (Text.trim text).isEmpty then ⟨turn.shown, "", [], .goOn s⟩
    else
      let r := s.respond log b text
      { r with stdout := turn.shown ++ r.stdout }
  | .interrupted => ⟨turn.shown ++ reminder, "", [], .goOn s⟩
  | .over => ⟨turn.shown ++ farewell, "", [], .ended⟩
  | .failed error => ⟨turn.shown, "Error: " ++ error ++ "\n", [], .ended⟩

/-- Takes turns until the session comes to its end, at the latest when there are no more. -/
def converse (log : Session → String → String) (b : Bounds) (s : Session) :
    List Turn → Conversation
  | [] => ⟨farewell, "", [], true⟩
  | turn :: turns =>
    match s.reply log b turn with
    | ⟨stdout, stderr, kept, .goOn s⟩ =>
      let rest := s.converse log b turns
      ⟨stdout ++ rest.stdout, stderr ++ rest.stderr, kept ++ rest.kept, rest.ended⟩
    | ⟨stdout, stderr, kept, .ended⟩ => ⟨stdout, stderr, kept, true⟩
    | ⟨stdout, stderr, kept, .unfinished⟩ => ⟨stdout, stderr, kept, false⟩

end Session

end Monkey
