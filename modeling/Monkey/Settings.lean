import Monkey.Path

/-!
# Settings

What one layer of the configuration says: a file, the environment or a flag. A layer may leave out
any key and any section; a section that is there without keys is not the same as none. Layers are
merged so that the later one counts for every key it sets.
-/

namespace Monkey

/-- The settings of evaluation. -/
structure InterpreterSettings where
  /-- How many calls may be in progress at once; 0 for any number. -/
  maxCallDepth : Option Nat
deriving DecidableEq, Repr, Inhabited

/-- The settings of interactive sessions. -/
structure SessionSettings where
  prompt : Option String
  /-- Whether the lines of a session are kept for the next one. -/
  history : Option Bool
  historyFile : Option Path
deriving DecidableEq, Repr, Inhabited

/-- One layer of the configuration. -/
structure Settings where
  interpreter : Option InterpreterSettings
  session : Option SessionSettings
deriving DecidableEq, Repr, Inhabited

namespace InterpreterSettings

/-- A section without keys. -/
def empty : InterpreterSettings := ⟨none⟩

/-- The section with another one over it. -/
def merge (lower upper : InterpreterSettings) : InterpreterSettings where
  maxCallDepth := upper.maxCallDepth.or lower.maxCallDepth

end InterpreterSettings

namespace SessionSettings

/-- A section without keys. -/
def empty : SessionSettings := ⟨none, none, none⟩

/-- The section with another one over it. -/
def merge (lower upper : SessionSettings) : SessionSettings where
  prompt := upper.prompt.or lower.prompt
  history := upper.history.or lower.history
  historyFile := upper.historyFile.or lower.historyFile

end SessionSettings

namespace Settings

/-- The layer without sections. -/
def empty : Settings := ⟨none, none⟩

/-- The layer with another one over it. -/
def merge (lower upper : Settings) : Settings where
  interpreter := Option.merge .merge lower.interpreter upper.interpreter
  session := Option.merge .merge lower.session upper.session

/-- How many calls may be in progress at once, if the layer sets it. -/
def maxCallDepth (s : Settings) : Option Nat := s.interpreter.bind (·.maxCallDepth)

/-- The prompt, if the layer sets it. -/
def prompt (s : Settings) : Option String := s.session.bind (·.prompt)

/-- Whether lines are kept, if the layer sets it. -/
def history (s : Settings) : Option Bool := s.session.bind (·.history)

/-- Where lines are kept, if the layer sets it. -/
def historyFile (s : Settings) : Option Path := s.session.bind (·.historyFile)

/-- Whether the layer can be used: it must not set an empty prompt. -/
def isValid (s : Settings) : Bool := s.prompt != some ""

/-- The keys of settings, each with the type of its values. -/
inductive Key : Type → Type where
  | maxCallDepth : Key Nat
  | prompt : Key String
  | history : Key Bool
  | historyFile : Key Path

/-- The value of a key, if the layer sets it. -/
def get? {α : Type} (s : Settings) : Key α → Option α
  | .maxCallDepth => s.maxCallDepth
  | .prompt => s.prompt
  | .history => s.history
  | .historyFile => s.historyFile

/-- A layer counts for more than the one under it, key by key. -/
theorem get?_merge {α : Type} (lower upper : Settings) (key : Key α) :
    (lower.merge upper).get? key = (upper.get? key).or (lower.get? key) := by
  obtain ⟨_ | _, _ | _⟩ := lower <;> obtain ⟨_ | _, _ | _⟩ := upper <;> cases key <;>
    simp [get?, merge, maxCallDepth, prompt, history, historyFile, Option.merge,
      InterpreterSettings.merge, SessionSettings.merge]

end Settings

end Monkey
