import Monkey.Proofs.Standard.Json.Scalars

/-!
# Reading texts

Each reader is first described by what it makes of the front of a text; then a value is read off the
front of its tokens by recursion on the value, where the next token, or the end of the text, shows
that a number is over. Main statement: `read?_of_isText`.
-/

namespace Monkey.Json

open Text

variable {takes : Number → Bool}

/-! ## The readers by the front of the text -/

section Readers

variable {cs rest rest' text : List Char} {j : Json} {items : List Json} {key : String}
  {member : String × Json} {members : List (String × Json)}

/-- A bracket in front begins an array. -/
lemma value?_array (start : skipSpace cs = '[' :: rest)
    (h : Yields (items? takes rest) items rest') :
    Yields (value? takes cs) (.array items) rest' := by
  obtain ⟨_, h⟩ := h
  rw [value?]
  split
  · rename_i eq
    cases start.symm.trans eq
    rw [h]
    exact ⟨_, rfl⟩
  · rename_i eq
    cases start.symm.trans eq
  · rename_i noArray _
    exact (noArray _ start).elim

/-- A brace in front begins an object. -/
lemma value?_object (start : skipSpace cs = '\x7b' :: rest)
    (h : Yields (members? takes rest) members rest') :
    Yields (value? takes cs) (.object members) rest' := by
  obtain ⟨_, h⟩ := h
  rw [value?]
  split
  · rename_i eq
    cases start.symm.trans eq
  · rename_i eq
    cases start.symm.trans eq
    rw [h]
    exact ⟨_, rfl⟩
  · rename_i noObject
    exact (noObject _ start).elim

/-- Anything else in front is a value that holds no other. -/
lemma value?_scalar (start : skipSpace cs = text) (noArray : text.head? ≠ some '[')
    (noObject : text.head? ≠ some '\x7b') (h : Yields (scalar? takes text) j rest) :
    Yields (value? takes cs) j rest := by
  subst start
  obtain ⟨_, h⟩ := h
  rw [value?]
  split
  · rename_i eq
    rw [eq] at noArray
    exact absurd rfl noArray
  · rename_i eq
    rw [eq] at noObject
    exact absurd rfl noObject
  · rw [h]
    exact ⟨_, rfl⟩

/-- A bracket that closes at once leaves no items. -/
lemma items?_end (start : skipSpace cs = ']' :: rest) : Yields (items? takes cs) [] rest := by
  rw [items?]
  split
  · rename_i eq
    cases start.symm.trans eq
    exact ⟨_, rfl⟩
  · rename_i more
    exact (more _ start).elim

/-- Otherwise an item stands in front of the others. -/
lemma items?_item (start : (skipSpace cs).head? ≠ some ']')
    (first : Yields (value? takes cs) j rest)
    (others : Yields (moreItems? takes rest) items rest') :
    Yields (items? takes cs) (j :: items) rest' := by
  obtain ⟨_, first⟩ := first
  obtain ⟨_, others⟩ := others
  rw [items?]
  split
  · rename_i eq
    rw [eq] at start
    exact absurd rfl start
  · rw [first]
    dsimp only
    rw [others]
    exact ⟨_, rfl⟩

/-- A closing bracket ends the items. -/
lemma moreItems?_end (start : skipSpace cs = ']' :: rest) :
    Yields (moreItems? takes cs) [] rest := by
  rw [moreItems?]
  split
  · rename_i eq
    cases start.symm.trans eq
    exact ⟨_, rfl⟩
  · rename_i eq
    cases start.symm.trans eq
  · rename_i more _
    exact (more _ start).elim

/-- Behind a comma another item follows. -/
lemma moreItems?_item {rest₁ : List Char} (start : skipSpace cs = ',' :: rest)
    (next : Yields (value? takes rest) j rest₁)
    (others : Yields (moreItems? takes rest₁) items rest') :
    Yields (moreItems? takes cs) (j :: items) rest' := by
  obtain ⟨_, next⟩ := next
  obtain ⟨_, others⟩ := others
  rw [moreItems?]
  split
  · rename_i eq
    cases start.symm.trans eq
  · rename_i eq
    cases start.symm.trans eq
    rw [next]
    dsimp only
    rw [others]
    exact ⟨_, rfl⟩
  · rename_i noComma
    exact (noComma _ start).elim

/-- A brace that closes at once leaves no members. -/
lemma members?_end (start : skipSpace cs = '\x7d' :: rest) :
    Yields (members? takes cs) [] rest := by
  rw [members?]
  split
  · rename_i eq
    cases start.symm.trans eq
    exact ⟨_, rfl⟩
  · rename_i more
    exact (more _ start).elim

/-- Otherwise a member stands in front of the others. -/
lemma members?_member (start : (skipSpace cs).head? ≠ some '\x7d')
    (first : Yields (member? takes cs) member rest)
    (others : Yields (moreMembers? takes rest) members rest') :
    Yields (members? takes cs) (member :: members) rest' := by
  obtain ⟨_, first⟩ := first
  obtain ⟨_, others⟩ := others
  rw [members?]
  split
  · rename_i eq
    rw [eq] at start
    exact absurd rfl start
  · rw [first]
    dsimp only
    rw [others]
    exact ⟨_, rfl⟩

/-- A closing brace ends the members. -/
lemma moreMembers?_end (start : skipSpace cs = '\x7d' :: rest) :
    Yields (moreMembers? takes cs) [] rest := by
  rw [moreMembers?]
  split
  · rename_i eq
    cases start.symm.trans eq
    exact ⟨_, rfl⟩
  · rename_i eq
    cases start.symm.trans eq
  · rename_i more _
    exact (more _ start).elim

/-- Behind a comma another member follows. -/
lemma moreMembers?_member {rest₁ : List Char} (start : skipSpace cs = ',' :: rest)
    (next : Yields (member? takes rest) member rest₁)
    (others : Yields (moreMembers? takes rest₁) members rest') :
    Yields (moreMembers? takes cs) (member :: members) rest' := by
  obtain ⟨_, next⟩ := next
  obtain ⟨_, others⟩ := others
  rw [moreMembers?]
  split
  · rename_i eq
    cases start.symm.trans eq
  · rename_i eq
    cases start.symm.trans eq
    rw [next]
    dsimp only
    rw [others]
    exact ⟨_, rfl⟩
  · rename_i noComma
    exact (noComma _ start).elim

/-- A member is a text in quotation marks, a colon and a value. -/
lemma member?_of {rest₁ rest₂ : List Char} (start : skipSpace cs = '"' :: rest)
    (body : Yields (stringBody? rest) key.toList rest₁) (colon : skipSpace rest₁ = ':' :: rest₂)
    (value : Yields (value? takes rest₂) j rest') : Yields (member? takes cs) (key, j) rest' := by
  obtain ⟨_, body⟩ := body
  obtain ⟨_, value⟩ := value
  rw [member?]
  split
  · rename_i eq
    cases start.symm.trans eq
    rw [body]
    dsimp only
    split
    · rename_i eq
      cases colon.symm.trans eq
      rw [value]
      simp only [String.ofList_toList]
      exact ⟨_, rfl⟩
    · rename_i noColon
      exact (noColon _ colon).elim
  · rename_i noKey
    exact (noKey _ start).elim

end Readers

/-! ## Reading tokens -/

section Spacing

variable {t cs : List Char} {ts : List (List Char)} {c : Char} {j : Json}

/-- The first character of a token of a value. It is no white space, and it tells the value from
the end of an array or an object. -/
def BeginsToken (c : Char) : Prop := isSpace c = false ∧ c ∉ [']', '\x7d']

/-- White space is skipped up to the first token. -/
lemma Spaced.skip (h : Spaced ((c :: t) :: ts) cs) (noSpace : isSpace c = false) :
    ∃ cs', skipSpace cs = c :: (t ++ cs') ∧ Spaced ts cs' := by
  generalize eq : (c :: t) :: ts = ts' at h
  induction h with
  | nil => cases eq
  | @blank c' _ cs space _ ih =>
    have skipped : skipSpace (c' :: cs) = skipSpace cs := List.dropWhile_cons_of_pos space
    rw [skipped]
    exact ih eq
  | token rest _ =>
    cases eq
    exact ⟨_, List.dropWhile_cons_of_neg (by simp [noSpace]), rest⟩

/-- White space is all that is left behind the last token. -/
lemma Spaced.skipSpace_eq_nil (h : Spaced [] cs) : skipSpace cs = [] := by
  generalize eq : ([] : List (List Char)) = ts at h
  induction h with
  | nil => rfl
  | blank space _ ih =>
    rw [skipSpace, List.dropWhile_cons_of_pos space]
    exact ih eq
  | token => cases eq

/-- No digit is white space. -/
lemma not_isSpace_of_isDigit (digit : c.isDigit) : isSpace c = false := by
  refine Bool.eq_false_iff.2 fun space => ?_
  simp only [isSpace, Bool.or_eq_true, beq_iff_eq] at space
  rcases space with ((rfl | rfl) | rfl) | rfl <;> cases digit

/-- The next of the tokens, if there is one, does not go on with a number. -/
def EndsNumbers (ts : List (List Char)) : Prop := ∀ t ∈ ts.head?, t ≠ [] ∧ EndsNumber t

/-- White space goes on with no number, and neither does a text that is over. -/
lemma Spaced.endsNumber (h : Spaced ts cs) (next : EndsNumbers ts) : EndsNumber cs := by
  cases h with
  | nil => exact stops_nil
  | blank space _ =>
    refine stops_cons.2 ?_
    simp only [isSpace, Bool.or_eq_true, beq_iff_eq] at space
    rcases space with ((rfl | rfl) | rfl) | rfl <;> rfl
  | @token t ts cs _ =>
    obtain ⟨some, ends⟩ := next t rfl
    obtain ⟨c, t, rfl⟩ := List.exists_cons_of_ne_nil some
    exact stops_cons.2 (stops_cons.1 ends)

/-- A number begins with a digit or a minus sign. -/
lemma IsNumber.eq_cons (h : IsNumber takes j t) : ∃ c cs, t = c :: cs ∧ (c.isDigit ∨ c = '-') := by
  cases h with
  | unsigned isWhole _ _ _ =>
    obtain ⟨c, cs, rfl, digit, -⟩ := isWhole.eq_cons
    exact ⟨c, _, rfl, .inl digit⟩
  | negative => exact ⟨'-', _, rfl, .inr rfl⟩

/-- What begins a number is no white space and no bracket. -/
lemma of_number_head (h : c.isDigit ∨ c = '-') :
    isSpace c = false ∧ c ∉ [']', '\x7d', '[', '\x7b'] := by
  refine ⟨?_, fun bracket => ?_⟩
  · rcases h with digit | rfl
    · exact not_isSpace_of_isDigit digit
    · rfl
  · simp only [List.mem_cons, List.not_mem_nil, or_false] at bracket
    rcases bracket with rfl | rfl | rfl | rfl <;> revert h <;> decide

/-- A value has a first token. -/
lemma Tokens.eq_cons (h : Tokens takes j ts) : ∃ c t ts', ts = (c :: t) :: ts' ∧ BeginsToken c := by
  cases h with
  | null | yes | no => exact ⟨_, _, _, rfl, rfl, by decide⟩
  | number isNumber =>
    obtain ⟨c, cs, rfl, first⟩ := isNumber.eq_cons
    obtain ⟨noSpace, bracket⟩ := of_number_head first
    simp only [List.mem_cons, not_or] at bracket
    exact ⟨c, cs, [], rfl, noSpace, by simp [bracket]⟩
  | string | array | object => exact ⟨_, _, _, rfl, rfl, by decide⟩

/-- The mark behind an item ends a number. -/
lemma MoreItemTokens.endsNumbers {items : List Json} (h : MoreItemTokens takes items ts)
    (rest : List (List Char)) : EndsNumbers (ts ++ rest) := by
  cases h <;>
  · rintro t ⟨⟩
    exact ⟨nofun, stops_cons.2 rfl⟩

/-- The mark behind a member ends a number. -/
lemma MoreMemberTokens.endsNumbers {members : List (String × Json)}
    (h : MoreMemberTokens takes members ts) (rest : List (List Char)) :
    EndsNumbers (ts ++ rest) := by
  cases h <;>
  · rintro t ⟨⟩
    exact ⟨nofun, stops_cons.2 rfl⟩

end Spacing

section Values

variable {cs rest t : List Char} {ts rests : List (List Char)} {c : Char} {j : Json}

/-- A number is told from the other values by its first character. -/
lemma scalar?_number {text : List Char} {c : Char} (first : text.head? = some c)
    (number : c.isDigit ∨ c = '-') : scalar? takes text = number? takes text := by
  apply scalar?.eq_5
  all_goals
    rintro rest rfl
    cases first
    rcases number with h | h <;> revert h <;> decide

/-- A value of one token is read if the reader of scalars reads it. -/
lemma value?_token (spaced : Spaced ((c :: t) :: ts) cs) (noSpace : isSpace c = false)
    (noArray : c ≠ '[') (noObject : c ≠ '\x7b')
    (read : ∀ rest, Spaced ts rest → Yields (scalar? takes (c :: t ++ rest)) j rest) :
    ∃ rest, Spaced ts rest ∧ Yields (value? takes cs) j rest := by
  obtain ⟨rest, skipped, more⟩ := spaced.skip noSpace
  refine ⟨rest, more, value?_scalar skipped ?_ ?_ (read rest more)⟩
  · intro array
    exact noArray (Option.some.inj array)
  · intro object
    exact noObject (Option.some.inj object)

/-- A number is read off its token if what comes next ends it. -/
lemma value?_numberToken (h : IsNumber takes j t) (spaced : Spaced (t :: ts) cs)
    (next : EndsNumbers ts) : ∃ rest, Spaced ts rest ∧ Yields (value? takes cs) j rest := by
  obtain ⟨c, t, rfl, first⟩ := h.eq_cons
  obtain ⟨noSpace, bracket⟩ := of_number_head first
  simp only [List.mem_cons, not_or] at bracket
  refine value?_token spaced noSpace bracket.2.2.1 bracket.2.2.2.1 fun rest spaced => ?_
  rw [scalar?_number (c := c) rfl first]
  exact number?_isNumber h (spaced.endsNumber next)

/-- A text is read off its token. -/
lemma value?_stringToken {s : String} (h : SpellsText s.toList t)
    (spaced : Spaced (quoted t :: ts) cs) :
    ∃ rest, Spaced ts rest ∧ Yields (value? takes cs) (.string s) rest := by
  refine value?_token spaced rfl (by decide) (by decide) fun rest spaced => ?_
  obtain ⟨_, body⟩ := stringBody?_spelled h rest
  rw [List.cons_append, List.append_assoc, List.singleton_append, scalar?, body]
  simp only [String.ofList_toList]
  exact ⟨_, rfl⟩

/-- A key with its colon is read, and its value is what is read next. -/
lemma member?_tokens {key : String} {value : Json} (spelled : SpellsText key.toList t)
    (spaced : Spaced (quoted t :: mark ':' :: ts) cs)
    (read : ∀ cs, Spaced ts cs → ∃ rest, Spaced rests rest ∧ Yields (value? takes cs) value rest) :
    ∃ rest, Spaced rests rest ∧ Yields (member? takes cs) (key, value) rest := by
  obtain ⟨cs₁, start, spaced⟩ := spaced.skip rfl
  obtain ⟨cs₂, colon, spaced⟩ := spaced.skip rfl
  obtain ⟨rest, more, value⟩ := read cs₂ spaced
  have body := stringBody?_spelled spelled cs₁
  rw [List.append_assoc, List.singleton_append] at start
  exact ⟨rest, more, member?_of start body colon value⟩

mutual

/-- A value is read off the front of its tokens. -/
theorem value?_tokens : ∀ (j : Json) {ts rests : List (List Char)} {cs : List Char},
    Tokens takes j ts → Spaced (ts ++ rests) cs → EndsNumbers rests →
    ∃ rest, Spaced rests rest ∧ Yields (value? takes cs) j rest
  | .array items, _, _, _, h, spaced, next => by
    cases h with
    | number isNumber => exact value?_numberToken isNumber spaced next
    | array h =>
      obtain ⟨cs, start, spaced⟩ := spaced.skip rfl
      -- The closing bracket is the last of the tokens of the items.
      obtain ⟨rest, more, read⟩ := items?_tokens items h spaced
      exact ⟨rest, more, value?_array start read⟩
  | .object members, _, _, _, h, spaced, next => by
    cases h with
    | number isNumber => exact value?_numberToken isNumber spaced next
    | object h =>
      obtain ⟨cs, start, spaced⟩ := spaced.skip rfl
      obtain ⟨rest, more, read⟩ := members?_tokens members h spaced
      exact ⟨rest, more, value?_object start read⟩
  | .string _, _, _, _, h, spaced, next => by
    cases h with
    | number isNumber => exact value?_numberToken isNumber spaced next
    | string h => exact value?_stringToken h spaced
  | .integer _, _, _, _, .number isNumber, spaced, next =>
    value?_numberToken isNumber spaced next
  | .decimal _, _, _, _, .number isNumber, spaced, next =>
    value?_numberToken isNumber spaced next
  | .null, _, _, _, h, spaced, next => by
    cases h with
    | number isNumber => exact value?_numberToken isNumber spaced next
    | null => exact value?_token spaced rfl (by decide) (by decide) fun _ _ => ⟨_, rfl⟩
  | .bool _, _, _, _, h, spaced, next => by
    cases h with
    | number isNumber => exact value?_numberToken isNumber spaced next
    | yes => exact value?_token spaced rfl (by decide) (by decide) fun _ _ => ⟨_, rfl⟩
    | no => exact value?_token spaced rfl (by decide) (by decide) fun _ _ => ⟨_, rfl⟩

/-- The items of an array are read off their tokens. -/
theorem items?_tokens : ∀ (items : List Json) {ts rests : List (List Char)} {cs : List Char},
    ItemTokens takes items ts → Spaced (ts ++ rests) cs →
    ∃ rest, Spaced rests rest ∧ Yields (items? takes cs) items rest
  | [], _, _, _, .nil, spaced => by
    obtain ⟨rest, start, more⟩ := spaced.skip rfl
    exact ⟨rest, more, items?_end start⟩
  | item :: others, _, rests, cs, .cons first more, spaced => by
    rw [List.append_assoc] at spaced
    obtain ⟨rest₁, spaced₁, read⟩ := value?_tokens item first spaced (more.endsNumbers rests)
    obtain ⟨rest, spaced₂, readOthers⟩ := moreItems?_tokens others more spaced₁
    refine ⟨rest, spaced₂, items?_item ?_ read readOthers⟩
    obtain ⟨c, t, ts, rfl, noSpace, noBracket⟩ := first.eq_cons
    obtain ⟨_, start, _⟩ := spaced.skip noSpace
    rw [start]
    rintro ⟨⟩
    exact noBracket List.mem_cons_self

/-- The items behind the first one are read off their tokens. -/
theorem moreItems?_tokens : ∀ (items : List Json) {ts rests : List (List Char)} {cs : List Char},
    MoreItemTokens takes items ts → Spaced (ts ++ rests) cs →
    ∃ rest, Spaced rests rest ∧ Yields (moreItems? takes cs) items rest
  | [], _, _, _, .nil, spaced => by
    obtain ⟨rest, start, more⟩ := spaced.skip rfl
    exact ⟨rest, more, moreItems?_end start⟩
  | item :: others, _, rests, cs, .cons first more, spaced => by
    rw [List.cons_append, List.append_assoc] at spaced
    obtain ⟨cs, start, spaced⟩ := spaced.skip rfl
    obtain ⟨rest₁, spaced₁, read⟩ := value?_tokens item first spaced (more.endsNumbers rests)
    obtain ⟨rest, spaced₂, readOthers⟩ := moreItems?_tokens others more spaced₁
    exact ⟨rest, spaced₂, moreItems?_item start read readOthers⟩

/-- The members of an object are read off their tokens. -/
theorem members?_tokens : ∀ (members : List (String × Json)) {ts rests : List (List Char)}
    {cs : List Char}, MemberTokens takes members ts → Spaced (ts ++ rests) cs →
    ∃ rest, Spaced rests rest ∧ Yields (members? takes cs) members rest
  | [], _, _, _, .nil, spaced => by
    obtain ⟨rest, start, more⟩ := spaced.skip rfl
    exact ⟨rest, more, members?_end start⟩
  | (key, value) :: others, _, rests, cs, .cons spelled first more, spaced => by
    rw [List.cons_append, List.cons_append, List.append_assoc] at spaced
    obtain ⟨rest₁, spaced₁, read⟩ := member?_tokens spelled spaced fun cs spaced =>
      value?_tokens value first spaced (more.endsNumbers rests)
    obtain ⟨rest, spaced₂, readOthers⟩ := moreMembers?_tokens others more spaced₁
    refine ⟨rest, spaced₂, members?_member ?_ read readOthers⟩
    obtain ⟨_, start, _⟩ := spaced.skip rfl
    rw [start]
    nofun

/-- The members behind the first one are read off their tokens. -/
theorem moreMembers?_tokens : ∀ (members : List (String × Json)) {ts rests : List (List Char)}
    {cs : List Char}, MoreMemberTokens takes members ts → Spaced (ts ++ rests) cs →
    ∃ rest, Spaced rests rest ∧ Yields (moreMembers? takes cs) members rest
  | [], _, _, _, .nil, spaced => by
    obtain ⟨rest, start, more⟩ := spaced.skip rfl
    exact ⟨rest, more, moreMembers?_end start⟩
  | (key, value) :: others, _, rests, cs, .cons spelled first more, spaced => by
    rw [List.cons_append, List.cons_append, List.cons_append, List.append_assoc] at spaced
    obtain ⟨cs, start, spaced⟩ := spaced.skip rfl
    obtain ⟨rest₁, spaced₁, read⟩ := member?_tokens spelled spaced fun cs spaced =>
      value?_tokens value first spaced (more.endsNumbers rests)
    obtain ⟨rest, spaced₂, readOthers⟩ := moreMembers?_tokens others more spaced₁
    exact ⟨rest, spaced₂, moreMembers?_member start read readOthers⟩

end

end Values

/-- Every text of a value is read as the value. -/
theorem read?_of_isText {text : String} (h : IsText takes j text) : read? takes text = some j := by
  obtain ⟨ts, tokens, spaced⟩ := h
  have spaced' : Spaced (ts ++ []) text.toList := by rwa [List.append_nil]
  obtain ⟨rest, blank, _, read⟩ := value?_tokens j tokens spaced' nofun
  rw [read?, read]
  simp only [blank.skipSpace_eq_nil]
  rfl

end Monkey.Json
