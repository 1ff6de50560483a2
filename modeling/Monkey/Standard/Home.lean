import Monkey.Environment

/-!
# The home directory

Finds the home directory as the standard library does.
-/

namespace Monkey

/-- The environment with the given variables on a system that knows a home directory for the account
of the user: the variable for it counts unless it is empty. -/
def Environment.ofVariables (entries : List (String × Option String)) (account : Option Path) :
    Environment where
  entries
  home? :=
    match (entries.lookup "HOME").join with
    | none => account
    | some text => if text.isEmpty then account else some ⟨text⟩

end Monkey
