import Monkey.Syntax.Parser
import Monkey.Token.Cursor

/-!
# Reading source texts

A source is scanned, its tokens are read, and the diagnostics are located in it.
-/

namespace Monkey

/-- Reads a program from a source text. -/
def Reading.ofSource (source : String) : Reading :=
  let reading := Reading.ofTokens (Token.ofSource source)
  { reading with diagnostics := reading.diagnostics.map (·.locate source) }

end Monkey
