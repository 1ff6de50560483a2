/-!
# Columns

Texts filled up with blanks to the width of a column. A text that is wider keeps its own width.
-/

namespace Monkey.Text

/-- A character, so many times. -/
def repeated (c : Char) (count : Nat) : String := String.ofList (List.replicate count c)

/-- The text at the right end of a column. -/
def padLeft (width : Nat) (text : String) : String :=
  repeated ' ' (width - text.length) ++ text

/-- The text at the left end of a column. -/
def padRight (width : Nat) (text : String) : String :=
  text ++ repeated ' ' (width - text.length)

/-- The characters of a repetition. -/
theorem toList_repeated (c : Char) (count : Nat) :
    (repeated c count).toList = List.replicate count c := String.toList_ofList

/-- A repetition is as long as it says. -/
theorem length_repeated (c : Char) (count : Nat) : (repeated c count).length = count := by
  simp [repeated]

/-- A text in a column is as wide as the column, or wider. -/
theorem length_padLeft (width : Nat) (text : String) :
    (padLeft width text).length = max width text.length := by
  rw [padLeft, String.length_append, length_repeated]
  omega

end Monkey.Text
