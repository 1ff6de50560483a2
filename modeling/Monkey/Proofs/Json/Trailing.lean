import Monkey.Proofs.Standard.Json.Reading

/-!
# One text, one value

A text is a text of one value only, since there is a reader that reads it as the value. With
anything but white space behind it, it is no text of an object: the text of an object is over with
its last brace, and no text of another value begins with a brace. Main statements: `IsText.unique`
and `IsText.not_append`.
-/

namespace Monkey.Json

open Text

variable {takes : Number → Bool} {cs t rest : List Char} {ts : List (List Char)} {j : Json}
  {ms : List (String × Json)}

/-- A token may be put behind a text that is spaced out. -/
lemma Spaced.concat (h : Spaced ts cs) (t : List Char) : Spaced (ts ++ [t]) (cs ++ t) := by
  induction h with
  | nil => simpa using Spaced.token (t := t) .nil
  | blank space _ ih => exact .blank space ih
  | token _ ih =>
    rw [List.append_assoc]
    exact .token ih

/-- A token is part of the text. -/
lemma Spaced.subset (h : Spaced ts cs) (mem : t ∈ ts) : t ⊆ cs := by
  induction h with
  | nil => cases mem
  | blank _ _ ih => exact fun c inside => .tail _ (ih mem inside)
  | token _ ih =>
    rcases List.mem_cons.1 mem with rfl | mem
    · exact List.subset_append_left _ _
    · exact fun c inside => List.mem_append_right _ (ih mem inside)

/-- A number is no object. -/
lemma number_ne_object (n : Number) : n.value ≠ .object ms := by
  simp only [Number.value]
  split <;> nofun

/-- No number is read as an object. -/
lemma unsigned?_ne_object {negative : Bool} :
    ¬ Yields (unsigned? takes negative cs) (.object ms) rest := by
  rintro ⟨_, h⟩
  unfold unsigned? at h
  split at h
  · cases h
  · dsimp only at h
    split at h
    · simp only [Option.some.injEq, Taken.mk.injEq] at h
      exact number_ne_object _ h.1
    · cases h

/-- No value that holds no other is read as an object. -/
lemma scalar?_ne_object : ¬ Yields (scalar? takes cs) (.object ms) rest := by
  rintro ⟨_, h⟩
  unfold scalar? at h
  split at h
  · cases h
  · cases h
  · cases h
  · split at h <;> cases h
  · unfold number? at h
    split at h
    · split at h
      · cases h
      · rename_i number
        cases h
        exact unsigned?_ne_object ⟨_, number⟩
    · exact unsigned?_ne_object ⟨_, h⟩

/-- An object begins with a brace. -/
lemma head?_of_object (h : Yields (value? takes cs) (.object ms) rest) :
    (skipSpace cs).head? = some '\x7b' := by
  obtain ⟨_, h⟩ := h
  rw [value?] at h
  split at h
  · split at h <;> cases h
  · rename_i start
    rw [start]
    rfl
  · split at h
    · cases h
    · rename_i scalar
      cases h
      exact (scalar?_ne_object ⟨_, scalar⟩).elim

/-- What is left of a text with something to be seen in it is not white space only. -/
lemma Spaced.skipSpace_ne_nil (h : Spaced [t] cs) (visible : ∃ c ∈ t, isSpace c = false) :
    skipSpace cs ≠ [] := by
  obtain ⟨c, mem, noSpace⟩ := visible
  intro blank
  have space := List.dropWhile_eq_nil_iff.1 blank c (h.subset List.mem_cons_self mem)
  rw [noSpace] at space
  cases space

/-- With something behind it, the text of an object is none of any value. -/
lemma read?_object_append {text : String} (members : MemberTokens takes ms ts)
    (spaced : Spaced (mark '\x7b' :: (ts ++ [t])) text.toList)
    (visible : ∃ c ∈ t, isSpace c = false) : read? takes text = none := by
  obtain ⟨cs, start, spaced⟩ := spaced.skip rfl
  obtain ⟨rest, spaced, read⟩ := members?_tokens ms members spaced
  obtain ⟨_, read⟩ := value?_object start read
  rw [read?, read]
  simp only [List.isEmpty_iff, spaced.skipSpace_ne_nil visible, if_false]

/-- A text that begins with another token than a brace is none of any object. -/
lemma read?_ne_object {text : String} {c : Char} (spaced : Spaced ((c :: t) :: ts) text.toList)
    (noSpace : isSpace c = false) (noObject : c ≠ '\x7b') :
    read? takes text ≠ some (.object ms) := by
  intro read
  obtain ⟨cs, start, -⟩ := spaced.skip noSpace
  unfold read? at read
  split at read
  · rename_i found
    split at read
    · cases read
      have brace := head?_of_object ⟨_, found⟩
      rw [start] at brace
      exact noObject (Option.some.inj brace)
    · cases read
  · cases read

/-- A text is a text of one value only. -/
theorem IsText.unique {j' : Json} {text : String} (h : IsText takes j text)
    (h' : IsText takes j' text) : j = j' :=
  Option.some.inj ((read?_of_isText h).symm.trans (read?_of_isText h'))

/-- With something behind it, the text of a value is not that of any object. -/
theorem IsText.not_append {text extra : String} (h : IsText takes j text)
    (visible : ∃ c ∈ extra.toList, isSpace c = false) :
    ¬ IsText takes (.object ms) (text ++ extra) := by
  intro behind
  have read := read?_of_isText behind
  revert read
  obtain ⟨ts, tokens, spaced⟩ := h
  have spaced := spaced.concat extra.toList
  rw [← String.toList_append] at spaced
  cases tokens with
  | object members =>
    rw [read?_object_append members spaced visible]
    nofun
  | number isNumber =>
    obtain ⟨c, cs, rfl, first⟩ := isNumber.eq_cons
    obtain ⟨noSpace, bracket⟩ := of_number_head first
    simp only [List.mem_cons, not_or] at bracket
    exact read?_ne_object spaced noSpace bracket.2.2.2.1
  | null | yes | no | string | array => exact read?_ne_object spaced rfl (by decide)

end Monkey.Json
