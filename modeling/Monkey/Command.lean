import Monkey.Configuration

/-!
# Commands

What the program can be asked to do. What is said with the command itself counts for more than the
configuration that was loaded.
-/

namespace Monkey

/-- What to do. -/
inductive Action where
  /-- Evaluate a file; `json` asks for reports as JSON. -/
  | run (file : String) (json : Bool)
  /-- Print how a file is read; `json` asks for the tree and for reports as JSON. -/
  | parse (file : String) (json : Bool)
  /-- Hold a session. -/
  | repl (noHistory : Bool) (prompt : Option String)
deriving DecidableEq, Repr

/-- What the program is asked to do, and what is to count for it. -/
structure Command where
  /-- Whether the log is to tell more. -/
  verbose : Bool
  /-- A limit of calls that counts for more than the configured one. -/
  maxCallDepth : Option Nat
  /-- What to do, if that is said; otherwise a session is held. -/
  action : Option Action
deriving DecidableEq, Repr

namespace Command

/-- The prompt that is asked for, if there is one. -/
def prompt (command : Command) : Option String :=
  match command.action with
  | some (.repl _ prompt) => prompt
  | _ => none

/-- Whether it is asked for to keep no history. -/
def noHistory (command : Command) : Bool :=
  match command.action with
  | some (.repl noHistory _) => noHistory
  | _ => false

end Command

namespace Configuration

/-- The configuration under which a command is carried out. -/
def under (c : Configuration) (command : Command) : Configuration :=
  { c with
    maxCallDepth := command.maxCallDepth.getD c.maxCallDepth
    prompt := command.prompt.getD c.prompt
    history := c.history && !command.noHistory }

/-- Where the lines of a session are kept, if they are kept. -/
def keptIn? (c : Configuration) : Option Path := if c.history then c.historyFile else none

end Configuration

end Monkey
