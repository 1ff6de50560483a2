import Monkey.Proofs.Standard.Json.Reading

/-!
# What is read is a text

Each reader takes tokens of what it returns off the front of the text, with white space between
them; so a text is read only if it is a text of the value. The proofs follow the readers. Main
statement: `isText_of_read?`.
-/

namespace Monkey.Json

open Text

variable {takes : Number → Bool} {cs rest text : List Char} {j : Json} {ts : List (List Char)}

/-- The text has these tokens in front of the rest. -/
def Fronts (ts : List (List Char)) (cs rest : List Char) : Prop :=
  ∀ rests, Spaced rests rest → Spaced (ts ++ rests) cs

/-- Nothing is taken off the front as no tokens. -/
lemma Fronts.nil : Fronts [] cs cs := fun _ spaced => spaced

/-- Tokens that are taken off the front one behind the other are taken off together. -/
lemma Fronts.append {ts ts' : List (List Char)} {cs cs' rest : List Char} (h : Fronts ts cs cs')
    (h' : Fronts ts' cs' rest) : Fronts (ts ++ ts') cs rest := fun rests spaced => by
  rw [List.append_assoc]
  exact h _ (h' rests spaced)

/-- One more token may be taken off the front. -/
lemma Fronts.token {t : List Char} (h : Fronts ts cs rest) : Fronts (t :: ts) (t ++ cs) rest :=
  fun rests spaced => .token (h rests spaced)

/-- White space in front of tokens does not matter. -/
lemma Fronts.of_skipSpace (h : Fronts ts (skipSpace cs) rest) : Fronts ts cs rest := by
  intro rests spaced
  induction cs with
  | nil => exact h rests spaced
  | cons c cs ih =>
    cases space : isSpace c with
    | true =>
      rw [skipSpace, List.dropWhile_cons_of_pos space] at h
      exact .blank space (ih h)
    | false =>
      rw [skipSpace, List.dropWhile_cons_of_neg (by simp [space])] at h
      exact h rests spaced

/-- A mark may be taken off the front, with the white space before it. -/
lemma Fronts.of_eq_cons {c : Char} (start : skipSpace cs = c :: text)
    (h : Fronts ts text rest) : Fronts (mark c :: ts) cs rest :=
  .of_skipSpace (start ▸ h.token)

/-- White space in front only makes a text longer. -/
lemma length_lt_of_skipSpace {c : Char} (start : skipSpace cs = c :: text) :
    text.length < cs.length := by
  have := skipSpace_length_le cs
  rw [start] at this
  exact this

/-- A value that holds no other is read off a token of it only. -/
lemma scalar?_sound (read : Yields (scalar? takes cs) j rest) :
    ∃ t, cs = t ++ rest ∧ Tokens takes j [t] := by
  obtain ⟨_, read⟩ := read
  unfold scalar? at read
  split at read
  · cases read
    exact ⟨['n', 'u', 'l', 'l'], rfl, .null⟩
  · cases read
    exact ⟨['t', 'r', 'u', 'e'], rfl, .yes⟩
  · cases read
    exact ⟨['f', 'a', 'l', 's', 'e'], rfl, .no⟩
  · split at read
    · cases read
    · rename_i found
      cases read
      obtain ⟨body, rfl, spelled⟩ := stringBody?_sound ⟨_, found⟩
      refine ⟨quoted body, by simp [quoted], .string ?_⟩
      rwa [String.toList_ofList]
  · obtain ⟨number, rfl, isNumber⟩ := number?_sound ⟨_, read⟩
    exact ⟨number, rfl, .number isNumber⟩

mutual

/-- What is read as a value begins with tokens of the value. -/
theorem value?_sound (cs : List Char) {j : Json} {rest : List Char}
    (read : Yields (value? takes cs) j rest) : ∃ ts, Tokens takes j ts ∧ Fronts ts cs rest := by
  obtain ⟨shorter, read⟩ := read
  rw [value?] at read
  split at read
  · rename_i text start
    split at read
    · cases read
    · rename_i found
      cases read
      have lt := length_lt_of_skipSpace start
      obtain ⟨ts, tokens, fronts⟩ := items?_sound text ⟨_, found⟩
      exact ⟨_, .array tokens, .of_eq_cons start fronts⟩
  · rename_i text start
    split at read
    · cases read
    · rename_i found
      cases read
      have lt := length_lt_of_skipSpace start
      obtain ⟨ts, tokens, fronts⟩ := members?_sound text ⟨_, found⟩
      exact ⟨_, .object tokens, .of_eq_cons start fronts⟩
  · split at read
    · cases read
    · rename_i found
      cases read
      obtain ⟨t, text, tokens⟩ := scalar?_sound ⟨_, found⟩
      exact ⟨_, tokens, .of_skipSpace (text ▸ Fronts.nil.token)⟩
termination_by (cs.length, 0)

/-- What is read as the items of an array begins with their tokens. -/
theorem items?_sound (cs : List Char) {items : List Json} {rest : List Char}
    (read : Yields (items? takes cs) items rest) :
    ∃ ts, ItemTokens takes items ts ∧ Fronts ts cs rest := by
  obtain ⟨shorter, read⟩ := read
  rw [items?] at read
  split at read
  · rename_i start
    cases read
    exact ⟨_, .nil, .of_eq_cons start .nil⟩
  · split at read
    · cases read
    · rename_i rest₁ shorter₁ first
      split at read
      · cases read
      · rename_i more
        cases read
        obtain ⟨ts, tokens, fronts⟩ := value?_sound cs ⟨_, first⟩
        obtain ⟨ts', tokens', fronts'⟩ := moreItems?_sound rest₁ ⟨_, more⟩
        exact ⟨_, .cons tokens tokens', fronts.append fronts'⟩
termination_by (cs.length, 1)

/-- What is read as the items behind the first one begins with their tokens. -/
theorem moreItems?_sound (cs : List Char) {items : List Json} {rest : List Char}
    (read : Yields (moreItems? takes cs) items rest) :
    ∃ ts, MoreItemTokens takes items ts ∧ Fronts ts cs rest := by
  obtain ⟨shorter, read⟩ := read
  rw [moreItems?] at read
  split at read
  · rename_i start
    cases read
    exact ⟨_, .nil, .of_eq_cons start .nil⟩
  · rename_i text start
    split at read
    · cases read
    · rename_i rest₁ shorter₁ next
      split at read
      · cases read
      · rename_i more
        cases read
        have lt := length_lt_of_skipSpace start
        obtain ⟨ts, tokens, fronts⟩ := value?_sound text ⟨_, next⟩
        obtain ⟨ts', tokens', fronts'⟩ := moreItems?_sound rest₁ ⟨_, more⟩
        exact ⟨_, .cons tokens tokens', .of_eq_cons start (fronts.append fronts')⟩
  · cases read
termination_by (cs.length, 1)

/-- What is read as the members of an object begins with their tokens. -/
theorem members?_sound (cs : List Char) {members : List (String × Json)} {rest : List Char}
    (read : Yields (members? takes cs) members rest) :
    ∃ ts, MemberTokens takes members ts ∧ Fronts ts cs rest := by
  obtain ⟨shorter, read⟩ := read
  rw [members?] at read
  split at read
  · rename_i start
    cases read
    exact ⟨_, .nil, .of_eq_cons start .nil⟩
  · split at read
    · cases read
    · rename_i first rest₁ shorter₁ found
      split at read
      · cases read
      · rename_i more
        cases read
        obtain ⟨cs', ts, spelled, tokens, fronts⟩ := member?_sound cs ⟨_, found⟩
        obtain ⟨ts', tokens', fronts'⟩ := moreMembers?_sound rest₁ ⟨_, more⟩
        exact ⟨_, .cons spelled tokens tokens', fronts.append fronts'⟩
termination_by (cs.length, 2)

/-- What is read as the members behind the first one begins with their tokens. -/
theorem moreMembers?_sound (cs : List Char) {members : List (String × Json)} {rest : List Char}
    (read : Yields (moreMembers? takes cs) members rest) :
    ∃ ts, MoreMemberTokens takes members ts ∧ Fronts ts cs rest := by
  obtain ⟨shorter, read⟩ := read
  rw [moreMembers?] at read
  split at read
  · rename_i start
    cases read
    exact ⟨_, .nil, .of_eq_cons start .nil⟩
  · rename_i text start
    split at read
    · cases read
    · rename_i next rest₁ shorter₁ found
      split at read
      · cases read
      · rename_i more
        cases read
        have lt := length_lt_of_skipSpace start
        obtain ⟨cs', ts, spelled, tokens, fronts⟩ := member?_sound text ⟨_, found⟩
        obtain ⟨ts', tokens', fronts'⟩ := moreMembers?_sound rest₁ ⟨_, more⟩
        exact ⟨_, .cons spelled tokens tokens', .of_eq_cons start (fronts.append fronts')⟩
  · cases read
termination_by (cs.length, 2)

/-- What is read as a member begins with its key, a colon and the tokens of its value. -/
theorem member?_sound (cs : List Char) {member : String × Json} {rest : List Char}
    (read : Yields (member? takes cs) member rest) :
    ∃ body ts, SpellsText member.1.toList body ∧ Tokens takes member.2 ts ∧
      Fronts (quoted body :: mark ':' :: ts) cs rest := by
  obtain ⟨shorter, read⟩ := read
  rw [member?] at read
  split at read
  · rename_i text start
    split at read
    · cases read
    · rename_i key rest₁ shorter₁ found
      dsimp only at read
      split at read
      · rename_i rest₂ colon
        split at read
        · cases read
        · rename_i value
          cases read
          obtain ⟨body, rfl, spelled⟩ := stringBody?_sound ⟨_, found⟩
          have lt := length_lt_of_skipSpace start
          have lt' := length_lt_of_skipSpace colon
          obtain ⟨ts, tokens, fronts⟩ := value?_sound rest₂ ⟨_, value⟩
          refine ⟨body, ts, by rwa [String.toList_ofList], tokens, ?_⟩
          have front : skipSpace cs = quoted body ++ rest₁ := by rw [start]; simp [quoted]
          exact .of_skipSpace (front ▸ (Fronts.of_eq_cons colon fronts).token)
      · cases read
  · cases read
termination_by (cs.length, 1)

end

/-- A text is read as a value only if it is one of the texts of the value. -/
theorem isText_of_read? {text : String} (read : read? takes text = some j) :
    IsText takes j text := by
  unfold read? at read
  split at read
  · rename_i rest shorter found
    split at read
    · rename_i blank
      cases read
      obtain ⟨ts, tokens, fronts⟩ := value?_sound text.toList ⟨_, found⟩
      have last : Fronts [] (skipSpace rest) [] := (List.isEmpty_iff.1 blank) ▸ .nil
      have spaced : Spaced [] rest := last.of_skipSpace [] .nil
      have spaced := fronts [] spaced
      rw [List.append_nil] at spaced
      exact ⟨ts, tokens, spaced⟩
    · cases read
  · cases read

end Monkey.Json
