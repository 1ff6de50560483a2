import Monkey.Evaluation.Node
import Monkey.Settings.Read
import Monkey.Text.Blank

/-!
# Configuration

What a run of the program goes by. It comes from layers of settings: the global file of the user,
the file of the project, and environment variables, each over the ones before it; what no layer sets
has a default. The project's file is the nearest one in or above the directory where the search
starts.
-/

namespace Monkey

/-- What a run of the program goes by. -/
structure Configuration where
  /-- How many calls may be in progress at once; 0 for any number. -/
  maxCallDepth : Nat
  prompt : String
  /-- Whether the lines of a session are kept for the next one. -/
  history : Bool
  historyFile : Option Path
  /-- Where the file of the project was found. -/
  projectRoot : Option Path
deriving DecidableEq, Repr

namespace Surroundings

/-- The settings file in a directory. -/
def projectFile (directory : Path) : Path := directory.join ⟨"monkey.toml"⟩

/-- The nearest directory with a settings file, from the given one upwards. -/
def projectRoot? (w : Surroundings) (start : Path) : Option Path :=
  start.ancestors.find? fun directory => w.files.exists? (projectFile directory)

/-- The project around a directory: where it is and what its settings are. -/
def project (w : Surroundings) (start : Path) : Except ConfigError (Option Path × Settings) :=
  match w.projectRoot? start with
  | none => .ok (none, .empty)
  | some root => (Settings.ofFile w (projectFile root)).map fun s => (some root, s)

end Surroundings

namespace Settings

/-- The variable for the limit of calls. -/
def depthVariable : String := "MONKEY_MAX_CALL_DEPTH"

/-- The layer that sets the limit of calls only. -/
def ofDepth (depth : Nat) : Settings := { empty with interpreter := some ⟨some depth⟩ }

/-- The layer that sets the prompt only. -/
def ofPrompt (prompt : String) : Settings :=
  { empty with session := some { SessionSettings.empty with prompt := some prompt } }

/-- The layer that turns the history off. -/
def withoutHistory : Settings :=
  { empty with session := some { SessionSettings.empty with history := some false } }

/-- Whether a text says yes. -/
def saysYes (text : String) : Bool := ["true", "1", "yes"].contains text.toLower

/-- What the environment says about the limit of calls. -/
def depthOfEnvironment (e : Environment) : Except ConfigError Settings :=
  match e.get? depthVariable with
  | none => .ok empty
  | some text =>
    match Numeral.unsigned? 64 (Text.trim text) with
    | some depth => .ok (ofDepth depth)
    | none => .error (.notADepth depthVariable text)

/-- The layer of the environment. -/
def ofEnvironment (e : Environment) : Except ConfigError Settings :=
  (depthOfEnvironment e).map fun depth =>
    let prompt := match e.get? "MONKEY_PROMPT" with
      | some text => ofPrompt text
      | none => empty
    let history := match e.get? "MONKEY_NO_HISTORY" with
      | some text => if saysYes text then withoutHistory else empty
      | none => empty
    (depth.merge prompt).merge history

end Settings

namespace Configuration

/-- The prompt unless it is set otherwise. -/
def defaultPrompt : String := ">> "

/-- The configuration with defaults for what the settings leave out. -/
def ofSettings (e : Environment) (root : Option Path) (s : Settings) : Configuration where
  maxCallDepth := s.maxCallDepth.getD Bounds.defaultLimit
  prompt := s.prompt.getD defaultPrompt
  history := s.history.getD true
  historyFile := s.historyFile.or e.historyFile?
  projectRoot := root

/-- Whether there is a file of a project. -/
def isProject (c : Configuration) : Bool := c.projectRoot.isSome

end Configuration

/-- Loads configurations. The global file is the one it was given; the place of the user's own one
is looked up once, when it is first needed. -/
structure Loader where
  globalFile : Option Path
deriving DecidableEq, Repr, Inhabited

namespace Loader

/-- A loader for the user's own global file. -/
def new : Loader := ⟨none⟩

/-- The loader after it has looked up the place of the global file. -/
def located (l : Loader) (e : Environment) : Loader := ⟨l.globalFile.or e.globalFile?⟩

/-- The layer of the global file, which need not exist. -/
def globalSettings (l : Loader) (w : Surroundings) : Except ConfigError Settings :=
  match l.globalFile with
  | none => .ok .empty
  | some path => if w.files.exists? path then Settings.ofFile w path else .ok .empty

/-- The configuration from the layer of a project with the global one under it and the environment
over it. -/
def finish (l : Loader) (w : Surroundings) (root : Option Path) (project : Settings) :
    Except ConfigError Configuration := do
  let global ← l.globalSettings w
  let environment ← Settings.ofEnvironment w.environment
  let settings ← ((global.merge project).merge environment).check
  return .ofSettings w.environment root settings

/-- Loads the configuration for a directory. -/
def loadFromDirectory (l : Loader) (w : Surroundings) (start : Path) :
    Except ConfigError Configuration × Loader :=
  match w.project start with
  | .error e => (.error e, l)
  | .ok (root, settings) =>
    ((l.located w.environment).finish w root settings, l.located w.environment)

/-- Loads the configuration for a project whose file is given. -/
def loadFromFile (l : Loader) (w : Surroundings) (file : Path) :
    Except ConfigError Configuration × Loader :=
  match Settings.ofFile w file with
  | .error e => (.error e, l)
  | .ok settings =>
    ((l.located w.environment).finish w file.parent? settings, l.located w.environment)

end Loader

end Monkey
