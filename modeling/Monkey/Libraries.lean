import Monkey.Command
import Monkey.Json.Library
import Monkey.Session.Console

/-!
# The libraries of the program

The program leaves to libraries what is not about the language: JSON, its arguments, its log, the
editor for lines and the wording of a failure. They are no part of the program, so all that is known
of them here is what they can be asked for. A library for arguments may end a run by itself.
-/

namespace Monkey

/-- How a run of the program ends. -/
inductive Status where
  | success
  | failure
  /-- The arguments make no sense. -/
  | misuse
  /-- The evaluation ran out of fuel. -/
  | unfinished
deriving DecidableEq, Repr

/-- The exit code for a status; a run that has no end has none. -/
def Status.code? : Status → Option Nat
  | .success => some 0
  | .failure => some 1
  | .misuse => some 2
  | .unfinished => none

/-- What the program prints, and how it ends. -/
structure Transcript where
  status : Status
  stdout : String
  stderr : String
deriving DecidableEq, Repr

/-- What the program is run in. -/
structure World where
  surroundings : Surroundings
  /-- The current directory, if there is one. -/
  directory : Except FileError Path

/-- Why a run fails: what was attempted, and the causes from the nearest to the first. -/
structure Trouble where
  message : String
  causes : List String
deriving DecidableEq, Repr

/-- What the log may tell of. -/
inductive Event where
  /-- A configuration has been loaded. -/
  | loaded (c : Configuration)
  /-- A source has been read and, if it can be, run under bounds. -/
  | ran (b : Bounds) (source : String)
  /-- A source has been read. -/
  | parsed (source : String)
  /-- A line has been read in a session and, if it can be, evaluated under bounds. -/
  | answered (b : Bounds) (s : Session) (line : String)
  /-- A program has finished with a value of a type. -/
  | finished (type : ValueType)
  /-- The lines of a session could not be saved. -/
  | unsaved (path : Path) (error : String)

/-- Whether an event is a warning. Anything else is there to find mistakes in the program. -/
def Event.isWarning : Event → Bool
  | .unsaved .. => true
  | _ => false

/-- A library for arguments: the command that they and the variables ask for, or what is printed in
place of any command. -/
abbrev ArgumentReader := Environment → List String → Except Transcript Command

/-- The libraries that the program uses. -/
structure Libraries where
  json : JsonLibrary
  arguments : ArgumentReader
  /-- What the log says of an event, given the variables and whether it is to tell more. -/
  log : Environment → Bool → Event → String
  /-- The lines that the editor gets from an input. It may know the lines of earlier sessions, and
  it may show a prompt. -/
  turns : World → Option Path → String → ByteArray → Except Trouble (List Turn)
  /-- What goes wrong when the lines of a session are saved, if anything does. -/
  save : World → Path → List String → Option String
  /-- The last words of a run that fails. -/
  lastWords : Trouble → String

end Monkey
