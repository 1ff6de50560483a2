import Monkey.Proofs.Standard.CommandLine
import Monkey.Proofs.Standard.Json

/-!
# The laws of the standard libraries

The libraries that the program runs with behave as is documented. Main statement:
`Libraries.standard_lawful`.
-/

namespace Monkey

/-- The libraries that the program runs with behave as is documented. -/
theorem Libraries.standard_lawful : Libraries.standard.Lawful where
  json := JsonLibrary.standard_lawful
  arguments := ArgumentReader.standard_lawful
  log _ _ := rfl

end Monkey
