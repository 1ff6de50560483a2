import Mathlib.Data.List.TakeWhile
import Mathlib.Tactic.Lemma

/-!
# Where a run of characters stops

A run of characters of a kind is taken off the front of a text whole if the text behind it does not
go on with the kind. Main statements: `takeWhile_append_of_stops` and `dropWhile_append_of_stops`.
-/

namespace Monkey.Text

/-- The first of these characters, if there is one, is of no such kind. -/
def Stops (p : Char → Bool) (cs : List Char) : Prop := ∀ c ∈ cs.head?, p c = false

variable {p : Char → Bool} {c : Char} {cs rest : List Char}

/-- The end stops everything. -/
@[simp] lemma stops_nil : Stops p [] := by
  simp [Stops]

/-- A first character stops a run exactly if it is not of its kind. -/
@[simp] lemma stops_cons : Stops p (c :: cs) ↔ p c = false := by
  simp [Stops]

/-- A run is taken up to what stops it. -/
lemma takeWhile_append_of_stops (all : ∀ c ∈ cs, p c) (stops : Stops p rest) :
    (cs ++ rest).takeWhile p = cs := by
  rw [List.takeWhile_append_of_pos all]
  cases rest with
  | nil => simp
  | cons c rest => simp [stops_cons.1 stops]

/-- A run is dropped up to what stops it. -/
lemma dropWhile_append_of_stops (all : ∀ c ∈ cs, p c) (stops : Stops p rest) :
    (cs ++ rest).dropWhile p = rest := by
  rw [List.dropWhile_append_of_pos all]
  cases rest with
  | nil => rfl
  | cons c rest => simp [stops_cons.1 stops]

end Monkey.Text
