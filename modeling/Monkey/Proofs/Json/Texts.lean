import Monkey.Json.Number
import Mathlib.Tactic.Lemma

/-!
# JSON texts

The texts of a value: its tokens in order, with any white space in front of each of them and at the
end. A string or a number may be written in several ways. No token has a control character inside,
so the tokens one behind the other stand on one line. Main statement: `Tokens.onOneLine`.
-/

namespace Monkey.Json

/-! ## Strings -/

/-- The characters behind a backslash that stand for a character each. -/
def shortEscapes : List (Char × Char) :=
  [('"', '"'), ('\\', '\\'), ('/', '/'), ('b', '\x08'), ('f', '\x0c'), ('n', '\n'), ('r', '\r'),
    ('t', '\t')]

/-- The characters are one way to write a character inside a string: as it is, unless it is a quote,
a backslash or a control character; by a short escape; or by its number, which is split in two if it
has more than four hexadecimal digits. -/
inductive Spells : Char → List Char → Prop where
  | plain {c} :
    c ≠ '"' →
    c ≠ '\\' →
    ¬ c.toNat < 0x20 →
    Spells c [c]
  | short {e c} :
    (e, c) ∈ shortEscapes →
    Spells c ['\\', e]
  | number {a b c d n} :
    Numeral.hex? [a, b, c, d] = some n →
    n < 0xD800 ∨ 0xE000 ≤ n →
    Spells (Char.ofNat n) ['\\', 'u', a, b, c, d]
  | pair {a b c d e f g h high low} :
    Numeral.hex? [a, b, c, d] = some high →
    0xD800 ≤ high →
    high < 0xDC00 →
    Numeral.hex? [e, f, g, h] = some low →
    0xDC00 ≤ low →
    low < 0xE000 →
    Spells (Char.ofNat (0x10000 + (high - 0xD800) * 0x400 + (low - 0xDC00)))
      ['\\', 'u', a, b, c, d, '\\', 'u', e, f, g, h]

/-- The characters are a way to write a text inside a string. -/
inductive SpellsText : List Char → List Char → Prop where
  | nil : SpellsText [] []
  | cons {c cs text rest} :
    Spells c cs →
    SpellsText text rest →
    SpellsText (c :: text) (cs ++ rest)

/-! ## Numbers -/

/-- The digits are a whole number: a zero, or digits that do not begin with one. -/
def IsWhole (digits : List Char) : Prop :=
  digits = ['0'] ∨ ∃ c cs, digits = c :: cs ∧ c ≠ '0' ∧ c.isDigit ∧ ∀ c ∈ cs, c.isDigit

/-- The characters are an exponent, with its sign and its digits; or there is none. -/
inductive IsScale : Option (Bool × List Char) → List Char → Prop where
  | none : IsScale none []
  | some {mark sign negative digits} :
    mark = 'e' ∨ mark = 'E' →
    (negative, sign) ∈ [(false, []), (false, ['+']), (true, ['-'])] →
    digits ≠ [] →
    (∀ c ∈ digits, c.isDigit) →
    IsScale (some (negative, digits)) (mark :: (sign ++ digits))

/-- A fraction with its point in front, if it has digits. -/
def pointed (fraction : List Char) : List Char :=
  if fraction.isEmpty then [] else '.' :: fraction

/-- The characters are a number: whole digits behind an optional sign, and then a fraction and an
exponent, if there are any. It has to be one that there is room for. -/
inductive IsNumber (takes : Number → Bool) : Json → List Char → Prop where
  | unsigned {whole fraction exponent scale} :
    IsWhole whole →
    (∀ c ∈ fraction, c.isDigit) →
    IsScale exponent scale →
    takes ⟨false, whole, fraction, exponent⟩ →
    IsNumber takes (Number.value ⟨false, whole, fraction, exponent⟩)
      (whole ++ (pointed fraction ++ scale))
  | negative {whole fraction exponent scale} :
    IsWhole whole →
    (∀ c ∈ fraction, c.isDigit) →
    IsScale exponent scale →
    takes ⟨true, whole, fraction, exponent⟩ →
    IsNumber takes (Number.value ⟨true, whole, fraction, exponent⟩)
      ('-' :: (whole ++ (pointed fraction ++ scale)))

/-! ## Values -/

/-- A string as a token: the characters between two quotes. -/
def quoted (cs : List Char) : List Char := '"' :: (cs ++ ['"'])

/-- A token of one character. -/
abbrev mark (c : Char) : List Char := [c]

mutual

/-- The tokens of a value. -/
inductive Tokens (takes : Number → Bool) : Json → List (List Char) → Prop where
  | null : Tokens takes .null [['n', 'u', 'l', 'l']]
  | yes : Tokens takes (.bool true) [['t', 'r', 'u', 'e']]
  | no : Tokens takes (.bool false) [['f', 'a', 'l', 's', 'e']]
  | number {j cs} :
    IsNumber takes j cs →
    Tokens takes j [cs]
  | string {s cs} :
    SpellsText s.toList cs →
    Tokens takes (.string s) [quoted cs]
  | array {items ts} :
    ItemTokens takes items ts →
    Tokens takes (.array items) (mark '[' :: ts)
  | object {members ts} :
    MemberTokens takes members ts →
    Tokens takes (.object members) (mark '\x7b' :: ts)

/-- The tokens of the items of an array and of its end. -/
inductive ItemTokens (takes : Number → Bool) : List Json → List (List Char) → Prop where
  | nil : ItemTokens takes [] [mark ']']
  | cons {item others ts ts'} :
    Tokens takes item ts →
    MoreItemTokens takes others ts' →
    ItemTokens takes (item :: others) (ts ++ ts')

/-- The tokens of the items after the first one, and of the end of the array. -/
inductive MoreItemTokens (takes : Number → Bool) : List Json → List (List Char) → Prop where
  | nil : MoreItemTokens takes [] [mark ']']
  | cons {item others ts ts'} :
    Tokens takes item ts →
    MoreItemTokens takes others ts' →
    MoreItemTokens takes (item :: others) (mark ',' :: (ts ++ ts'))

/-- The tokens of the members of an object and of its end. -/
inductive MemberTokens (takes : Number → Bool) :
    List (String × Json) → List (List Char) → Prop where
  | nil : MemberTokens takes [] [mark '\x7d']
  | cons {key value others cs ts ts'} :
    SpellsText key.toList cs →
    Tokens takes value ts →
    MoreMemberTokens takes others ts' →
    MemberTokens takes ((key, value) :: others) (quoted cs :: mark ':' :: (ts ++ ts'))

/-- The tokens of the members after the first one, and of the end of the object. -/
inductive MoreMemberTokens (takes : Number → Bool) :
    List (String × Json) → List (List Char) → Prop where
  | nil : MoreMemberTokens takes [] [mark '\x7d']
  | cons {key value others cs ts ts'} :
    SpellsText key.toList cs →
    Tokens takes value ts →
    MoreMemberTokens takes others ts' →
    MoreMemberTokens takes ((key, value) :: others)
      (mark ',' :: quoted cs :: mark ':' :: (ts ++ ts'))

end

/-- The text has these tokens, with any white space in front of each and at its end. -/
inductive Spaced : List (List Char) → List Char → Prop where
  | nil : Spaced [] []
  | blank {c ts cs} :
    isSpace c →
    Spaced ts cs →
    Spaced ts (c :: cs)
  | token {t ts cs} :
    Spaced ts cs →
    Spaced (t :: ts) (t ++ cs)

/-- The text is one of the texts of the value. -/
def IsText (takes : Number → Bool) (j : Json) (text : String) : Prop :=
  ∃ ts, Tokens takes j ts ∧ Spaced ts text.toList

/-- Tokens may follow one another with nothing between them. -/
lemma spaced_flatten : ∀ (ts : List (List Char)), Spaced ts ts.flatten
  | [] => .nil
  | _ :: ts => .token (spaced_flatten ts)

/-! ## Lines -/

section Lines

/-- The characters can stand on one line: there is no control character among them. -/
def OnOneLine (cs : List Char) : Prop := ∀ c ∈ cs, ¬ c.toNat < 0x20

instance (cs : List Char) : Decidable (OnOneLine cs) :=
  List.decidableBAll _ cs

variable {takes : Number → Bool} {cs cs' t : List Char} {ts : List (List Char)} {j : Json}

/-- No control character is a hexadecimal digit. -/
lemma not_control_of_hexDigit? {c : Char} (h : (Numeral.hexDigit? c).isSome) :
    ¬ c.toNat < 0x20 := by
  intro control
  have none : ∀ n < 0x20, Numeral.hexDigit? (Char.ofNat n) = none := by decide
  rw [← Char.ofNat_toNat c, none _ control] at h
  cases h

/-- Hexadecimal digits are no control characters. -/
lemma not_control_of_hex? {digits : List Char} {n : Nat} (h : Numeral.hex? digits = some n) :
    ∀ c ∈ digits, ¬ c.toNat < 0x20 := by
  suffices ∀ m, digits.foldlM (fun n c => (Numeral.hexDigit? c).map (n * 16 + ·)) m = some n →
      ∀ c ∈ digits, ¬ c.toNat < 0x20 from this 0 h
  clear h
  induction digits with
  | nil => exact fun _ _ => nofun
  | cons c digits ih =>
    intro m h
    rw [List.foldlM_cons, Option.bind_eq_bind, Option.bind_eq_some_iff] at h
    obtain ⟨m', first, more⟩ := h
    obtain ⟨k, digit, -⟩ := Option.map_eq_some_iff.1 first
    refine List.forall_mem_cons.2 ⟨?_, ih m' more⟩
    exact not_control_of_hexDigit? (Option.isSome_of_mem digit)

/-- No control character stands inside a string. -/
lemma Spells.not_control {c : Char} (h : Spells c cs) : ∀ c ∈ cs, ¬ c.toNat < 0x20 := by
  cases h with
  | plain _ _ control => exact List.forall_mem_singleton.2 control
  | short mem =>
    have escapes : ∀ e ∈ shortEscapes, ¬ e.1.toNat < 0x20 := by decide
    exact List.forall_mem_cons.2 ⟨by decide, List.forall_mem_singleton.2 (escapes _ mem)⟩
  | number digits _ =>
    have hex := not_control_of_hex? digits
    exact List.forall_mem_cons.2 ⟨by decide, List.forall_mem_cons.2 ⟨by decide, hex⟩⟩
  | pair digits _ _ digits' _ _ =>
    have hex := not_control_of_hex? digits
    have hex' := not_control_of_hex? digits'
    simp only [List.forall_mem_cons, List.not_mem_nil] at hex hex' ⊢
    exact ⟨by decide, by decide, hex.1, hex.2.1, hex.2.2.1, hex.2.2.2.1, by decide, by decide,
      hex'⟩

/-- No text is spelled with control characters. -/
lemma SpellsText.not_control {text : List Char} (h : SpellsText text cs) :
    ∀ c ∈ cs, ¬ c.toNat < 0x20 := by
  induction h with
  | nil => nofun
  | cons first _ ih =>
    intro c mem
    rcases List.mem_append.1 mem with mem | mem
    · exact first.not_control c mem
    · exact ih c mem

/-- Whole numbers begin with a digit. -/
lemma IsWhole.eq_cons (h : IsWhole cs) :
    ∃ c cs', cs = c :: cs' ∧ c.isDigit ∧ ∀ c ∈ cs', c.isDigit := by
  rcases h with rfl | ⟨c, cs, rfl, -, digit, more⟩
  · exact ⟨'0', [], rfl, rfl, nofun⟩
  · exact ⟨c, cs, rfl, digit, more⟩

/-- Lines without a break make one line. -/
lemma OnOneLine.append (h : OnOneLine cs) (h' : OnOneLine cs') : OnOneLine (cs ++ cs') :=
  List.forall_mem_append.2 ⟨h, h'⟩

/-- Digits are on one line. -/
lemma OnOneLine.of_digits (digits : ∀ c ∈ cs, c.isDigit) : OnOneLine cs := by
  intro c mem control
  have none : ∀ n < 0x20, (Char.ofNat n).isDigit = false := by decide
  have digit := digits c mem
  rw [← Char.ofNat_toNat c, none _ control] at digit
  cases digit

/-- A line has no break. -/
lemma OnOneLine.not_mem (h : OnOneLine cs) : '\n' ∉ cs := fun mem => h _ mem (by decide)

/-- Digits before a point are on one line. -/
lemma IsWhole.onOneLine (h : IsWhole cs) : OnOneLine cs := by
  obtain ⟨c, cs, rfl, digit, more⟩ := h.eq_cons
  exact .of_digits (List.forall_mem_cons.2 ⟨digit, more⟩)

/-- A fraction is on one line. -/
lemma onOneLine_pointed (digits : ∀ c ∈ cs, c.isDigit) : OnOneLine (pointed cs) := by
  cases cs with
  | nil => nofun
  | cons => exact List.forall_mem_cons.2 ⟨by decide, OnOneLine.of_digits digits⟩

/-- An exponent is on one line. -/
lemma IsScale.onOneLine {exponent : Option (Bool × List Char)} (h : IsScale exponent cs) :
    OnOneLine cs := by
  cases h with
  | none => nofun
  | some mark signed _ digits =>
    refine List.forall_mem_cons.2 ⟨?_, OnOneLine.append ?_ (.of_digits digits)⟩
    · rcases mark with rfl | rfl <;> decide
    · have signs : ∀ s ∈ [(false, []), (false, ['+']), (true, ['-'])], OnOneLine s.2 := by
        decide
      exact signs _ signed

/-- A number is on one line. -/
lemma IsNumber.onOneLine (h : IsNumber takes j t) : OnOneLine t := by
  cases h with
  | unsigned isWhole digits isScale _ =>
    exact isWhole.onOneLine.append ((onOneLine_pointed digits).append isScale.onOneLine)
  | negative isWhole digits isScale _ =>
    exact List.forall_mem_cons.2 ⟨by decide,
      isWhole.onOneLine.append ((onOneLine_pointed digits).append isScale.onOneLine)⟩

/-- A text in quotation marks is on one line. -/
lemma onOneLine_quoted {text : List Char} (h : SpellsText text t) : OnOneLine (quoted t) :=
  List.forall_mem_cons.2 ⟨by decide, OnOneLine.append h.not_control (by decide)⟩

mutual

/-- No token of a value has a line break inside. -/
theorem Tokens.onOneLine :
    ∀ {j : Json} {ts : List (List Char)}, Tokens takes j ts → OnOneLine ts.flatten
  | _, _, .null => by decide
  | _, _, .yes => by decide
  | _, _, .no => by decide
  | _, _, .number isNumber => isNumber.onOneLine.append nofun
  | _, _, .string spelled => (onOneLine_quoted spelled).append nofun
  | _, _, .array items => OnOneLine.append (by decide) items.onOneLine
  | _, _, .object members => OnOneLine.append (by decide) members.onOneLine

/-- No token of items has a line break inside. -/
theorem ItemTokens.onOneLine : ∀ {items : List Json} {ts : List (List Char)},
    ItemTokens takes items ts → OnOneLine ts.flatten
  | _, _, .nil => by decide
  | _, _, .cons first more => by
    rw [List.flatten_append]
    exact first.onOneLine.append more.onOneLine

/-- No token of further items has a line break inside. -/
theorem MoreItemTokens.onOneLine : ∀ {items : List Json} {ts : List (List Char)},
    MoreItemTokens takes items ts → OnOneLine ts.flatten
  | _, _, .nil => by decide
  | _, _, .cons next more => by
    rw [List.flatten_cons, List.flatten_append]
    exact OnOneLine.append (by decide) (next.onOneLine.append more.onOneLine)

/-- No token of members has a line break inside. -/
theorem MemberTokens.onOneLine : ∀ {members : List (String × Json)} {ts : List (List Char)},
    MemberTokens takes members ts → OnOneLine ts.flatten
  | _, _, .nil => by decide
  | _, _, .cons spelled value more => by
    rw [List.flatten_cons, List.flatten_cons, List.flatten_append]
    exact (onOneLine_quoted spelled).append
      (OnOneLine.append (by decide) (value.onOneLine.append more.onOneLine))

/-- No token of further members has a line break inside. -/
theorem MoreMemberTokens.onOneLine : ∀ {members : List (String × Json)} {ts : List (List Char)},
    MoreMemberTokens takes members ts → OnOneLine ts.flatten
  | _, _, .nil => by decide
  | _, _, .cons spelled value more => by
    rw [List.flatten_cons, List.flatten_cons, List.flatten_cons, List.flatten_append]
    exact OnOneLine.append (by decide) ((onOneLine_quoted spelled).append
      (OnOneLine.append (by decide) (value.onOneLine.append more.onOneLine)))

end

end Lines

end Monkey.Json
