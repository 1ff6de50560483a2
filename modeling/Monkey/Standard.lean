import Monkey.Command.Transcript
import Monkey.Standard.Editor
import Monkey.Standard.Json
import Monkey.Standard.Wording

/-!
# The standard libraries

The libraries that the program runs with. Their log says nothing, and their editor keeps no lines.
-/

namespace Monkey

/-- The command that the arguments of the program ask for. -/
def ArgumentReader.standard : ArgumentReader := fun e args =>
  (Command.ofArguments e args).mapError Interruption.transcript

/-- The libraries that the program runs with. -/
def Libraries.standard : Libraries where
  json := .standard
  arguments := .standard
  log _ _ _ := ""
  turns _ _ _ input := .ok (Editor.turns input)
  save _ _ _ := none
  lastWords := Trouble.lastWords

end Monkey
