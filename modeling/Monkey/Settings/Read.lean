import Monkey.Environment
import Monkey.Files
import Monkey.Settings

/-!
# Settings from files

Reads a layer from a file. The program leaves it to a library to read TOML, so that all that is
known of a text is whether it holds settings, or what the library says is wrong with it. A layer
that cannot be used is refused as well.
-/

namespace Monkey

/-- Why there is no configuration. -/
inductive ConfigError where
  | notFound (path : Path)
  | unreadable (error : FileError)
  /-- The text under a path holds no settings, in the words of the library. -/
  | malformed (origin : Path) (error : String)
  | emptyPrompt
  /-- A variable should hold a limit of calls, but holds another text. -/
  | notADepth (name text : String)
deriving DecidableEq, Repr

/-- The wording of an error. -/
def ConfigError.message : ConfigError → String
  | .notFound path => "Configuration file not found: " ++ path.text
  | .unreadable error => "Failed to read configuration file: " ++ error.message
  | .malformed origin error => "Invalid TOML syntax in " ++ origin.text ++ ": " ++ error
  | .emptyPrompt => "Invalid value for 'repl.prompt': prompt must not be empty"
  | .notADepth name text =>
    "Invalid value for '" ++ name ++ "': expected a non-negative integer, got '" ++ text ++ "'"

/-- What a configuration is loaded from. -/
structure Surroundings where
  files : Files
  environment : Environment
  /-- The library for TOML: the settings that a text holds, or what is wrong with it. -/
  readToml : String → Except String Settings

namespace Settings

/-- The layer itself, if it can be used. -/
def check (s : Settings) : Except ConfigError Settings :=
  if s.isValid then .ok s else .error .emptyPrompt

/-- Reads a layer from a text that stands under a path. -/
def read (w : Surroundings) (origin : Path) (text : String) : Except ConfigError Settings :=
  match w.readToml text with
  | .ok s => s.check
  | .error error => .error (.malformed origin error)

/-- Reads a layer from a file. -/
def ofFile (w : Surroundings) (path : Path) : Except ConfigError Settings :=
  match w.files.read path with
  | .ok text => read w path text
  | .error .notFound => .error (.notFound path)
  | .error error => .error (.unreadable error)

end Settings

end Monkey
