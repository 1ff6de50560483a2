import Monkey.Proofs.Standard.Json.Codecs
import Monkey.Proofs.Standard.Json.Reading
import Monkey.Proofs.Standard.Json.Soundness
import Monkey.Proofs.Standard.Json.Writing

/-!
# The standard library for JSON is lawful

The library that the program runs with behaves as it is documented. Main statement:
`JsonLibrary.standard_lawful`.
-/

namespace Monkey.JsonLibrary

open Json

variable {j : Json} {text : String}

/-- The texts of a value are read as the value, as far as it may be nested. -/
lemma standard_read?_of_isText (isText : IsText standard.takes j text) :
    standard.read? text = (some j).filter standard.admits :=
  congrArg (Option.filter standard.admits) (read?_of_isText isText)

/-- The standard library keeps all laws. -/
theorem standard_lawful : standard.Lawful where
  encode := Kind.writes_toJson
  decode := Kind.ofJson?_eq_some_iff
  read isText admitted := by
    rw [standard_read?_of_isText isText, Option.filter_some, if_pos admitted]
  guard isText denied := by
    rw [standard_read?_of_isText isText, Option.filter_some, denied]
    rfl
  sound read := isText_of_read? (Option.filter_eq_some_iff.1 read).1
  pretty plain := ⟨_, rfl, isText_pretty plain⟩
  compact plain := by
    obtain ⟨ts, tokens, same⟩ := exists_tokens_compact plain
    exact ⟨ts, tokens, congrArg Except.ok same⟩
  limit n found := by
    cases found
    decide

end Monkey.JsonLibrary
