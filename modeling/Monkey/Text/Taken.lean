/-!
# Reading from the front of a text

What a reader returns: the value it read, and what is left of the text, with the proof that
something was taken. This is what ends a recursion that reads one thing after another.
-/

namespace Monkey.Text

/-- A value read from the front of `text`, and what is left of the text. -/
structure Taken (α : Type) (text : List Char) where
  value : α
  rest : List Char
  shorter : rest.length < text.length

namespace Taken

variable {α β γ : Type} {text longer : List Char}

/-- The value that a single character stands for. -/
def one (value : α) (c : Char) (rest : List Char) : Taken α (c :: rest) :=
  ⟨value, rest, Nat.lt_succ_self _⟩

/-- The same, as read from the front of a text that is at least as long. -/
def widen (t : Taken α text) (h : text.length ≤ longer.length) : Taken α longer :=
  ⟨t.value, t.rest, Nat.lt_of_lt_of_le t.shorter h⟩

/-- The same, as read from the front of a longer text. -/
def within (t : Taken α text) (h : text.length < longer.length) : Taken α longer :=
  t.widen (Nat.le_of_lt h)

/-- The same, with more characters in front. -/
def behind (front : List Char) (t : Taken α text) : Taken α (front ++ text) :=
  t.widen (by rw [List.length_append]; exact Nat.le_add_left _ _)

/-- The same with another value. -/
def map (f : α → β) (t : Taken α text) : Taken β text := ⟨f t.value, t.rest, t.shorter⟩

/-- Two values, one read after the other, put together. -/
def andThen (f : α → β → γ) (t : Taken α text) (u : Taken β t.rest) : Taken γ text :=
  ⟨f t.value u.value, u.rest, Nat.lt_trans u.shorter t.shorter⟩

/-- The same, with less left over. -/
def leaving (t : Taken α text) (rest : List Char) (h : rest.length ≤ t.rest.length) :
    Taken α text :=
  ⟨t.value, rest, Nat.lt_of_le_of_lt h t.shorter⟩

end Taken

end Monkey.Text
