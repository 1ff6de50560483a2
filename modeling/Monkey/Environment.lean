import Monkey.Path

/-!
# Environment variables

The variables that the program starts with, by name, and the places of the user's own files, which
are below the home directory. Where that is the system is asked.
-/

namespace Monkey

/-- Environment variables, and what the system makes of them. -/
structure Environment where
  /-- The variables with their values; a value need not be text. -/
  entries : List (String × Option String)
  /-- The home directory of the user, if the system knows one. -/
  home? : Option Path
deriving DecidableEq, Repr, Inhabited

namespace Environment

/-- The value of a variable, if it is set and is text. -/
def get? (e : Environment) (name : String) : Option String := (e.entries.lookup name).join

/-- The directory of the user's own files. -/
def globalDirectory? (e : Environment) : Option Path := e.home?.map (·.join ⟨".monkey"⟩)

/-- The user's own settings file. -/
def globalFile? (e : Environment) : Option Path :=
  e.globalDirectory?.map (·.join ⟨"config.toml"⟩)

/-- The file that keeps the lines of sessions, unless it is set otherwise. -/
def historyFile? (e : Environment) : Option Path :=
  e.globalDirectory?.map (·.join ⟨"history"⟩)

end Environment

end Monkey
