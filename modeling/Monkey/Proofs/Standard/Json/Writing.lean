import Monkey.Standard.Json
import Monkey.Proofs.Json.Laws
import Monkey.Proofs.Text.Numeral

/-!
# Writing plain values

Both layouts write the same tokens for a plain value, the pretty one with white space between them,
and these are tokens of the value. Main statements: `isText_pretty` and `exists_tokens_compact`.
-/

namespace Monkey.Json

/-! ## Strings -/

/-- The two hexadecimal digits that a control character is written with denote it. -/
lemma hex?_control {n : Nat} (h : n < 0x20) :
    Numeral.hex? ['0', '0', Nat.digitChar (n / 16), Nat.digitChar (n % 16)] = some n := by
  revert n
  decide

/-- How a character is written is a way to write it. -/
lemma spells_escapeChar (c : Char) : Spells c (escapeChar c) := by
  fun_cases escapeChar c with
  | case1 | case2 | case3 | case4 | case5 | case6 | case7 =>
    subst_vars
    exact .short (by decide)
  | case8 _ _ _ _ _ _ _ control =>
    have spells := Spells.number (hex?_control control) (.inl (by omega))
    rwa [Char.ofNat_toNat] at spells
  | case9 quote backslash _ _ _ _ _ control => exact .plain quote backslash control

/-- What is written for a text is a way to write it. -/
lemma spellsText_escape (text : List Char) : SpellsText text (text.flatMap escapeChar) := by
  induction text with
  | nil => exact .nil
  | cons c text ih => exact .cons (spells_escapeChar c) ih

/-! ## Numbers -/

section Numbers

variable {n : Nat}

/-- More digits do not make a number smaller. -/
lemma le_ofDigitChars (digits : List Char) (n : Nat) : n ≤ Nat.ofDigitChars 10 digits n := by
  induction digits generalizing n with
  | nil => exact Nat.le_refl n
  | cons c digits ih =>
    rw [Nat.ofDigitChars_cons]
    exact Nat.le_trans (by omega) (ih _)

/-- Digits that denote a number of 64 bits fit into a word. -/
lemma fill_of_lt {digits : List Char} (h : Nat.ofDigitChars 10 digits n < Numeral.words 64) :
    Double.fill n digits = (Nat.ofDigitChars 10 digits n, []) := by
  induction digits generalizing n with
  | nil => rfl
  | cons c digits ih =>
    have next : Nat.ofDigitChars 10 (c :: digits) n =
        Nat.ofDigitChars 10 digits (Nat.ofDigitChars 10 [c] n) := by
      rw [← Nat.ofDigitChars_append, List.singleton_append]
    rw [next] at h ⊢
    rw [Double.fill, if_pos (Nat.lt_of_le_of_lt (le_ofDigitChars _ _) h), ih h]

/-- A double next to a word of 64 bits is far below the limit of doubles. -/
lemma round_lt_limit {n : Nat} (h : n < Numeral.words 64) : Double.round n < Double.limit := by
  let unit := Nat.pow 2 (n.log2 + 1 - Double.precision)
  have positive : 0 < unit := Nat.pow_pos (by decide)
  have small : unit ≤ Nat.pow 2 64 := by
    refine Nat.pow_le_pow_right (by decide) ?_
    rcases Nat.eq_zero_or_pos n with rfl | pos
    · decide
    · have := (Nat.log2_lt (Nat.ne_of_gt pos)).2 h
      omega
  have near := (Double.roundDiv_near n positive).2
  have word : n < Nat.pow 2 64 := h
  have far : 2 * Nat.pow 2 64 < Double.limit := by decide +kernel
  show Double.roundDiv n unit * unit < _
  omega

/-- A word of 64 bits is in the range of a double. -/
lemma isFinite_word {n : Nat} (negative : Bool) (h : n < Numeral.words 64) :
    Number.isFinite ⟨negative, Nat.toDigits 10 n, [], none⟩ := by
  have digits : Nat.ofDigitChars 10 (Nat.toDigits 10 n) 0 = n := Nat.ofDigitChars_ten_toDigits
  have whole : Double.fill 0 (Nat.toDigits 10 n) = (n, []) := by
    rw [fill_of_lt (by rwa [digits]), digits]
  have one : Double.round (Nat.pow 10 0) = 1 := Double.round_eq_self (by decide)
  simp only [Number.isFinite, Double.scaled, whole, Double.fill, Number.power,
    Double.isFiniteScaled, Bool.or_eq_true, Bool.and_eq_true, decide_eq_true_eq]
  refine .inr ⟨by decide, ?_⟩
  rw [show ((([] : List Char).length : Int) + ([] : List Char).length - ([] : List Char).length +
    0).toNat = 0 from rfl, one, Nat.mul_one]
  exact round_lt_limit h

/-- The numeral of a number that is not zero does not begin with a zero. -/
lemma toDigits_ne_zero_cons {n : Nat} (h : n ≠ 0) (cs : List Char) :
    Nat.toDigits 10 n ≠ '0' :: cs := by
  induction n using Nat.strongRecOn generalizing cs with
  | ind n ih =>
    intro zero
    rcases Nat.lt_or_ge n 10 with small | large
    · rw [Nat.toDigits_of_lt_base small] at zero
      have digit : ∀ d < 10, d ≠ 0 → Nat.digitChar d ≠ '0' := by decide
      exact digit n small h (List.cons.inj zero).1
    · rw [Nat.toDigits_of_base_le (by decide) large] at zero
      cases eq : Nat.toDigits 10 (n / 10) with
      | nil => exact Nat.toDigits_ne_nil eq
      | cons c cs' =>
        rw [eq, List.cons_append] at zero
        cases zero
        exact ih (n / 10) (by omega) (by omega) cs' eq

/-- A numeral is a whole number. -/
lemma isWhole_toDigits (n : Nat) : IsWhole (Nat.toDigits 10 n) := by
  rcases Nat.eq_zero_or_pos n with rfl | pos
  · exact .inl rfl
  · have digits : ∀ c ∈ Nat.toDigits 10 n, c.isDigit := fun _ => Numeral.isDigit_of_mem_toDigits
    obtain ⟨c, cs, eq⟩ := List.exists_cons_of_ne_nil (Nat.toDigits_ne_nil (b := 10) (n := n))
    rw [eq] at digits ⊢
    obtain ⟨digit, more⟩ := List.forall_mem_cons.1 digits
    refine .inr ⟨c, cs, rfl, ?_, digit, more⟩
    rintro rfl
    exact toDigits_ne_zero_cons (Nat.ne_of_gt pos) cs eq

/-- The value of a numeral is the number, unless it is a zero with a sign. -/
lemma value_toDigits {negative : Bool} (positive : negative → n ≠ 0) :
    Number.value ⟨negative, Nat.toDigits 10 n, [], none⟩ =
      .integer (if negative then -n else n) := by
  have plain : !(negative && n == 0) := by
    cases negative <;> simp_all
  simp only [Number.value, Nat.ofDigitChars_ten_toDigits, plain]
  rfl

/-- What is written for a whole number of 64 bits is a number. -/
lemma isNumber_ofInt {n : Int} (small : n.natAbs < Numeral.words 64) :
    IsNumber Number.isFinite (.integer n) (Numeral.ofInt n).toList := by
  have none : ∀ c ∈ ([] : List Char), c.isDigit := nofun
  have alone (digits : List Char) : digits ++ (pointed [] ++ []) = digits := List.append_nil digits
  cases n with
  | ofNat n =>
    have number := IsNumber.unsigned (isWhole_toDigits n) none .none (isFinite_word false small)
    rw [alone, value_toDigits fun minus => absurd minus Bool.false_ne_true] at number
    rw [Numeral.ofInt, Numeral.ofNat, String.toList_ofList]
    exact number
  | negSucc n =>
    have number :=
      IsNumber.negative (isWhole_toDigits (n + 1)) none .none (isFinite_word true small)
    rw [alone, value_toDigits fun _ => Nat.succ_ne_zero n] at number
    have text : (Numeral.ofInt (.negSucc n)).toList = '-' :: Nat.toDigits 10 (n + 1) := by
      simp [Numeral.ofInt, Numeral.ofNat]
    rw [text]
    exact number

end Numbers

/-! ## Values -/

section Layouts

variable {j : Json} {t cs : List Char} {ts : List (List Char)}

/-- Both layouts of the value have these tokens, the compact one with nothing between them. -/
structure Lays (j : Json) (ts : List (List Char)) : Prop where
  tokens : Tokens Number.isFinite j ts
  compact : ∀ tail, writeCompact tail j = ts.flatten ++ tail
  pretty : ∀ (level : Nat) {rests : List (List Char)} {tail : List Char}, Spaced rests tail →
    Spaced (ts ++ rests) (j.writePretty level tail)

/-- Both layouts of the items behind the first one have these tokens. -/
structure LaysMoreItems (items : List Json) (ts : List (List Char)) : Prop where
  tokens : MoreItemTokens Number.isFinite items ts
  compact : ∀ tail, writeCompactMoreItems (']' :: tail) items = ts.flatten ++ tail
  pretty : ∀ (level : Nat) {rests : List (List Char)} {tail : List Char}, Spaced rests tail →
    Spaced (ts ++ rests) (writePrettyMoreItems level tail items)

/-- Both layouts of the members behind the first one have these tokens. -/
structure LaysMoreMembers (members : List (String × Json)) (ts : List (List Char)) : Prop where
  tokens : MoreMemberTokens Number.isFinite members ts
  compact : ∀ tail, writeCompactMoreMembers ('\x7d' :: tail) members = ts.flatten ++ tail
  pretty : ∀ (level : Nat) {rests : List (List Char)} {tail : List Char}, Spaced rests tail →
    Spaced (ts ++ rests) (writePrettyMoreMembers level tail members)

/-- White space may stand in front of the next token. -/
lemma Spaced.newLine (h : Spaced ts cs) (level : Nat) : Spaced ts (newLine level cs) := by
  show Spaced ts ('\n' :: (List.replicate (2 * level) ' ' ++ cs))
  refine .blank rfl ?_
  induction 2 * level with
  | zero => exact h
  | succ n ih => exact .blank rfl ih

/-- A string is written as one token. -/
lemma writeString_eq (s : String) (tail : List Char) :
    writeString s tail = quoted (s.toList.flatMap escapeChar) ++ tail := by
  simp [writeString, quoted]

/-- A value that is written as one token is written so in both layouts. -/
lemma lays_token (h : Tokens Number.isFinite j [t])
    (compact : ∀ tail, writeCompact tail j = t ++ tail)
    (pretty : ∀ (level : Nat) tail, writePretty level tail j = t ++ tail) : Lays j [t] where
  tokens := h
  compact tail := by rw [compact, List.flatten_singleton]
  pretty level _ tail spaced := by
    rw [pretty]
    exact .token spaced

mutual

/-- There are tokens that both layouts have for a plain value. -/
theorem exists_lays : ∀ (j : Json), j.IsPlain → ∃ ts, Lays j ts
  | .null, _ => ⟨_, lays_token .null (fun _ => rfl) (fun _ _ => rfl)⟩
  | .bool true, _ => ⟨_, lays_token .yes (fun _ => rfl) (fun _ _ => rfl)⟩
  | .bool false, _ => ⟨_, lays_token .no (fun _ => rfl) (fun _ _ => rfl)⟩
  | .integer _, plain =>
    ⟨_, lays_token (.number (isNumber_ofInt plain)) (fun _ => rfl) (fun _ _ => rfl)⟩
  | .string s, _ =>
    ⟨_, lays_token (.string (spellsText_escape s.toList)) (writeString_eq s)
      (fun _ => writeString_eq s)⟩
  | .array [], _ => by
    refine ⟨_, .array .nil, fun _ => rfl, fun level rests tail spaced => ?_⟩
    rw [writePretty]
    exact .token (.token spaced)
  | .array (item :: others), plain => by
    obtain ⟨ts, first⟩ := exists_lays item plain.1
    obtain ⟨ts', more⟩ := exists_laysMoreItems others plain.2
    refine ⟨_, .array (.cons first.tokens more.tokens), fun tail => ?_,
      fun level rests tail spaced => ?_⟩
    · rw [writeCompact, writeCompactItems, more.compact, first.compact]
      simp
    · rw [writePretty, List.cons_append, List.append_assoc]
      exact .token ((first.pretty (level + 1) (more.pretty level spaced)).newLine (level + 1))
  | .object [], _ => by
    refine ⟨_, .object .nil, fun _ => rfl, fun level rests tail spaced => ?_⟩
    rw [writePretty]
    exact .token (.token spaced)
  | .object ((key, value) :: others), plain => by
    obtain ⟨ts, first⟩ := exists_lays value plain.1
    obtain ⟨ts', more⟩ := exists_laysMoreMembers others plain.2
    refine ⟨_, .object (.cons (spellsText_escape _) first.tokens more.tokens), fun tail => ?_,
      fun level rests tail spaced => ?_⟩
    · rw [writeCompact, writeCompactMembers, more.compact, first.compact, writeString_eq]
      simp
    · rw [writePretty, writeString_eq, List.cons_append, List.cons_append, List.cons_append,
        List.append_assoc]
      have value := first.pretty (level + 1) (more.pretty level spaced)
      exact .token (.newLine (.token (.token (.blank rfl value))) (level + 1))

/-- The same for the items behind the first one. -/
theorem exists_laysMoreItems : ∀ (items : List Json), ArePlain items → ∃ ts, LaysMoreItems items ts
  | [], _ => by
    refine ⟨_, .nil, fun _ => rfl, fun level rests tail spaced => ?_⟩
    rw [writePrettyMoreItems]
    exact .newLine (.token spaced) level
  | item :: others, plain => by
    obtain ⟨ts, next⟩ := exists_lays item plain.1
    obtain ⟨ts', more⟩ := exists_laysMoreItems others plain.2
    refine ⟨_, .cons next.tokens more.tokens, fun tail => ?_, fun level rests tail spaced => ?_⟩
    · rw [writeCompactMoreItems, more.compact, next.compact]
      simp
    · rw [writePrettyMoreItems, List.cons_append, List.append_assoc]
      exact .token ((next.pretty (level + 1) (more.pretty level spaced)).newLine (level + 1))

/-- The same for the members behind the first one. -/
theorem exists_laysMoreMembers : ∀ (members : List (String × Json)), MembersArePlain members →
    ∃ ts, LaysMoreMembers members ts
  | [], _ => by
    refine ⟨_, .nil, fun _ => rfl, fun level rests tail spaced => ?_⟩
    rw [writePrettyMoreMembers]
    exact .newLine (.token spaced) level
  | (key, value) :: others, plain => by
    obtain ⟨ts, next⟩ := exists_lays value plain.1
    obtain ⟨ts', more⟩ := exists_laysMoreMembers others plain.2
    refine ⟨_, .cons (spellsText_escape _) next.tokens more.tokens, fun tail => ?_,
      fun level rests tail spaced => ?_⟩
    · rw [writeCompactMoreMembers, more.compact, next.compact, writeString_eq]
      simp
    · rw [writePrettyMoreMembers, writeString_eq, List.cons_append, List.cons_append,
        List.cons_append, List.append_assoc]
      have value := next.pretty (level + 1) (more.pretty level spaced)
      exact .token (.newLine (.token (.token (.blank rfl value))) (level + 1))

end

/-- The pretty layout of a plain value is a text of the value. -/
lemma isText_pretty (plain : j.IsPlain) : IsText Number.isFinite j j.pretty := by
  obtain ⟨ts, lays⟩ := exists_lays j plain
  have spaced := lays.pretty 0 .nil
  rw [List.append_nil] at spaced
  exact ⟨ts, lays.tokens, by rwa [pretty, String.toList_ofList]⟩

/-- The compact layout of a plain value is its tokens, one behind the other. -/
lemma exists_tokens_compact (plain : j.IsPlain) :
    ∃ ts, Tokens Number.isFinite j ts ∧ j.compact = String.ofList ts.flatten := by
  obtain ⟨ts, lays⟩ := exists_lays j plain
  exact ⟨ts, lays.tokens, by rw [compact, lays.compact, List.append_nil]⟩

end Layouts

end Monkey.Json
