/-!
# Fields

A text cut at every occurrence of a character.
-/

namespace Monkey.Text

variable {α : Type} [DecidableEq α]

/-- The stretches between the occurrences of `sep`: one more than there are occurrences. -/
def fieldsOf (sep : α) : List α → List (List α)
  | [] => [[]]
  | c :: cs =>
    if c = sep then [] :: fieldsOf sep cs
    else
      match fieldsOf sep cs with
      | [] => [[c]]
      | field :: others => (c :: field) :: others

/-- The fields of a text. -/
def fields (sep : Char) (text : String) : List String :=
  (fieldsOf sep text.toList).map String.ofList

/-- There is a field at least. -/
theorem fieldsOf_ne_nil (sep : α) (cs : List α) : fieldsOf sep cs ≠ [] := by
  cases cs with
  | nil => simp [fieldsOf]
  | cons c cs =>
    unfold fieldsOf
    split
    · simp
    · split <;> simp

end Monkey.Text
