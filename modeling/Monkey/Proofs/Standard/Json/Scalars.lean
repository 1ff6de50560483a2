import Monkey.Standard.Json.Read
import Monkey.Proofs.Json.Texts
import Monkey.Proofs.Text.Stops

/-!
# Reading strings and numbers

A string or a number is read from any way to write it, whatever stands behind it that does not go on
with a number; and only from such a way. Main statements: `stringBody?_spelled`,
`stringBody?_sound`, `number?_isNumber` and `number?_sound`.
-/

namespace Monkey

open Text

/-- The reader takes a value off the front of the text and leaves the rest. -/
def Text.Yields {α : Type} {text : List Char} (r : Option (Taken α text)) (value : α)
    (rest : List Char) : Prop := ∃ shorter, r = some ⟨value, rest, shorter⟩

namespace Json

/-! ## Strings -/

section Strings

variable {c : Char} {cs text rest : List Char}

/-- A quotation mark ends a string. -/
lemma stringBody?_quote : Yields (stringBody? ('"' :: rest)) [] rest := by
  rw [stringBody?]
  exact ⟨_, rfl⟩

/-- A backslash and what is behind it stand for a character. -/
lemma stringBody?_backslash {cs' : List Char} (escaped : Yields (escape? cs) c cs')
    (more : Yields (stringBody? cs') text rest) :
    Yields (stringBody? ('\\' :: cs)) (c :: text) rest := by
  obtain ⟨_, escaped⟩ := escaped
  obtain ⟨_, more⟩ := more
  rw [stringBody?, escaped]
  dsimp only
  rw [more]
  exact ⟨_, rfl⟩

/-- Any other character but a control character stands for itself. -/
lemma stringBody?_plain (quote : c ≠ '"') (backslash : c ≠ '\\') (control : ¬ c.toNat < 0x20)
    (more : Yields (stringBody? cs) text rest) :
    Yields (stringBody? (c :: cs)) (c :: text) rest := by
  obtain ⟨_, more⟩ := more
  rw [stringBody?.eq_4 _ _ quote backslash, if_neg control, more]
  exact ⟨_, rfl⟩

/-- A short escape stands for its character. -/
lemma escape?_short {e : Char} (mem : (e, c) ∈ shortEscapes) : Yields (escape? (e :: cs)) c cs := by
  simp only [shortEscapes, List.mem_cons, Prod.mk.injEq, List.not_mem_nil, or_false] at mem
  rcases mem with ⟨rfl, rfl⟩ | ⟨rfl, rfl⟩ | ⟨rfl, rfl⟩ | ⟨rfl, rfl⟩ | ⟨rfl, rfl⟩ | ⟨rfl, rfl⟩ |
    ⟨rfl, rfl⟩ | ⟨rfl, rfl⟩ <;> exact ⟨_, rfl⟩

/-- A character is read from any way to write it. -/
lemma stringBody?_spells (h : Spells c cs) (more : Yields (stringBody? rest) text cs') :
    Yields (stringBody? (cs ++ rest)) (c :: text) cs' := by
  cases h with
  | plain quote backslash control => exact stringBody?_plain quote backslash control more
  | short mem => exact stringBody?_backslash (escape?_short mem) more
  | @number a b c d n digits scalar =>
    have escaped : Yields (escape? ('u' :: a :: b :: c :: d :: rest)) (Char.ofNat n) rest := by
      rw [escape?, digits]
      dsimp only
      rw [if_neg (by omega), if_neg (by omega)]
      exact ⟨_, rfl⟩
    exact stringBody?_backslash escaped more
  | @pair a b c d e f g h high low digits surrogate above digits' surrogate' above' =>
    have escaped : Yields
        (escape? ('u' :: a :: b :: c :: d :: '\\' :: 'u' :: e :: f :: g :: h :: rest))
        (Char.ofNat (0x10000 + (high - 0xD800) * 0x400 + (low - 0xDC00))) rest := by
      rw [escape?, digits]
      dsimp only
      rw [if_neg (by omega), if_pos ⟨surrogate, above⟩]
      simp only [digits', surrogate', above', and_self, if_true]
      exact ⟨_, rfl⟩
    exact stringBody?_backslash escaped more

/-- The rest of a string is read from any way to write it. -/
lemma stringBody?_spelled (h : SpellsText text cs) (rest : List Char) :
    Yields (stringBody? (cs ++ '"' :: rest)) text rest := by
  induction h with
  | nil => exact stringBody?_quote
  | cons first _ ih =>
    rw [List.append_assoc]
    exact stringBody?_spells first ih

/-- The rest of an escape is read only if the escape spells a character. -/
lemma escape?_sound (read : Yields (escape? cs) c rest) :
    ∃ escape, cs = escape ++ rest ∧ Spells c ('\\' :: escape) := by
  obtain ⟨shorter, read⟩ := read
  unfold escape? at read
  split at read
  case h_9 =>
    rename_i a b c d rest
    split at read
    · cases read
    · rename_i high digits
      split at read
      · cases read
      split at read
      · rename_i surrogate
        split at read
        · rename_i e f g h rest'
          split at read
          · cases read
          · rename_i low digits'
            split at read
            · rename_i surrogate'
              simp only [Option.some.injEq, Taken.mk.injEq] at read
              obtain ⟨rfl, rfl⟩ := read
              exact ⟨['u', a, b, c, d, '\\', 'u', e, f, g, h], rfl,
                .pair digits surrogate.1 surrogate.2 digits' surrogate'.1 surrogate'.2⟩
            · cases read
        · cases read
      · simp only [Option.some.injEq, Taken.mk.injEq] at read
        obtain ⟨rfl, rfl⟩ := read
        exact ⟨['u', a, b, c, d], rfl, .number digits (by omega)⟩
  case h_10 => cases read
  all_goals
    cases read
    exact ⟨[_], rfl, .short (by decide)⟩

/-- A string is read only from a way to write it. -/
lemma stringBody?_sound (read : Yields (stringBody? cs) text rest) :
    ∃ body, cs = body ++ '"' :: rest ∧ SpellsText text body := by
  obtain ⟨_, read⟩ := read
  fun_induction stringBody? cs generalizing text rest with
  | case1 => cases read
  | case2 =>
    cases read
    exact ⟨[], rfl, .nil⟩
  | case3 => cases read
  | case4 => cases read
  | case5 cs c rest₁ _ escaped text' rest₂ _ more ih =>
    cases read
    obtain ⟨escape, rfl, spells⟩ := escape?_sound ⟨_, escaped⟩
    obtain ⟨body, rfl, spelled⟩ := ih _ more
    exact ⟨'\\' :: escape ++ body, by simp, .cons spells spelled⟩
  | case6 => cases read
  | case7 => cases read
  | case8 c cs quote backslash control text' rest₁ _ more ih =>
    cases read
    obtain ⟨body, rfl, spelled⟩ := ih _ more
    exact ⟨c :: body, rfl, .cons (.plain quote backslash control) spelled⟩

end Strings

/-! ## Numbers -/

/-- No number goes on with the characters. -/
def EndsNumber (cs : List Char) : Prop :=
  Stops (fun c => c.isDigit || c == '.' || c == 'e' || c == 'E') cs

section Reading

variable {takes : Number → Bool} {j : Json} {whole fraction cs scale rest : List Char}
  {exponent : Option (Bool × List Char)}

/-- What ends a number ends its digits. -/
lemma EndsNumber.digit (h : EndsNumber rest) : Stops Char.isDigit rest := fun c first => by
  have := h c first
  simp only [Bool.or_eq_false_iff] at this
  exact this.1.1.1

/-- The digits before a point are read up to one that is none. -/
lemma integerDigits?_isWhole (h : IsWhole whole) (stops : Stops Char.isDigit rest) :
    Yields (integerDigits? (whole ++ rest)) whole rest := by
  rcases h with rfl | ⟨c, cs, rfl, zero, digit, more⟩
  · exact ⟨_, rfl⟩
  · rw [List.cons_append, integerDigits?.eq_2 _ _ zero, if_pos digit]
    simp only [takeWhile_append_of_stops more stops, dropWhile_append_of_stops more stops]
    exact ⟨_, rfl⟩

/-- Behind a whole number comes a point, an exponent, or what ends a number. -/
lemma IsScale.stops (h : IsScale exponent scale) (ends : EndsNumber rest) :
    Stops (fun c => c.isDigit || c == '.') (scale ++ rest) := by
  cases h with
  | none =>
    intro c head
    have := ends c head
    simp only [Bool.or_eq_false_iff] at this ⊢
    exact this.1.1
  | some mark =>
    rw [List.cons_append, stops_cons]
    rcases mark with rfl | rfl <;> rfl

/-- The digits behind a point are read up to one that is none. -/
lemma fractionDigits_pointed (digits : ∀ c ∈ fraction, c.isDigit)
    (stops : Stops (fun c => c.isDigit || c == '.') rest) :
    fractionDigits (pointed fraction ++ rest) = (fraction, rest) := by
  cases fraction with
  | nil =>
    show fractionDigits rest = _
    unfold fractionDigits
    split
    · cases stops_cons.1 stops
    · rfl
  | cons c more =>
    have ends : Stops Char.isDigit rest := by
      intro c head
      have := stops c head
      simp only [Bool.or_eq_false_iff] at this
      exact this.1
    show fractionDigits ('.' :: (c :: more ++ rest)) = _
    simp only [fractionDigits, takeWhile_append_of_stops digits ends,
      dropWhile_append_of_stops digits ends]
    rfl

/-- An exponent is read with its sign up to the end of the number. -/
lemma exponentDigits_isScale (h : IsScale exponent scale) (ends : EndsNumber rest) :
    exponentDigits (scale ++ rest) = (exponent, rest) := by
  cases h with
  | none =>
    cases rest with
    | nil => rfl
    | cons c rest =>
      have mark : ¬ (c = 'e' ∨ c = 'E') := by
        rintro (rfl | rfl) <;> cases stops_cons.1 ends
      exact if_neg mark
  | @some mark sign negative digits marked signed some digits' =>
    have stops := ends.digit
    obtain ⟨c, cs, rfl⟩ := List.exists_cons_of_ne_nil some
    have take := takeWhile_append_of_stops digits' stops
    have drop := dropWhile_append_of_stops digits' stops
    have digit : c.isDigit := digits' c List.mem_cons_self
    rw [List.cons_append] at take drop
    rw [List.cons_append, List.append_assoc, List.cons_append]
    simp only [List.mem_cons, Prod.mk.injEq, List.not_mem_nil, or_false] at signed
    rcases signed with ⟨rfl, rfl⟩ | ⟨rfl, rfl⟩ | ⟨rfl, rfl⟩
    · have minus : c ≠ '-' := by
        rintro rfl
        cases digit
      have plus : c ≠ '+' := by
        rintro rfl
        cases digit
      simp [exponentDigits, marked, minus, plus, take, drop]
    · simp [exponentDigits, marked, take, drop]
    · simp [exponentDigits, marked, take, drop]

/-- A number is read off its parts if it fits. -/
lemma unsigned?_of_parts {negative : Bool} (isWhole : IsWhole whole)
    (digits : ∀ c ∈ fraction, c.isDigit) (isScale : IsScale exponent scale)
    (room : takes ⟨negative, whole, fraction, exponent⟩) (ends : EndsNumber rest) :
    Yields (unsigned? takes negative (whole ++ (pointed fraction ++ scale) ++ rest))
      (Number.value ⟨negative, whole, fraction, exponent⟩) rest := by
  have stops := isScale.stops ends
  have stops' : Stops Char.isDigit (pointed fraction ++ (scale ++ rest)) := by
    cases fraction with
    | nil =>
      intro c head
      have := stops c head
      simp only [Bool.or_eq_false_iff] at this
      exact this.1
    | cons => exact stops_cons.2 rfl
  obtain ⟨_, read⟩ := integerDigits?_isWhole isWhole stops'
  rw [List.append_assoc, List.append_assoc, unsigned?, read]
  simp only [fractionDigits_pointed digits stops, exponentDigits_isScale isScale ends, room]
  exact ⟨_, rfl⟩

/-- A number is read whole in front of what does not go on with it. -/
lemma number?_isNumber (h : IsNumber takes j cs) (ends : EndsNumber rest) :
    Yields (number? takes (cs ++ rest)) j rest := by
  cases h with
  | @unsigned whole fraction exponent scale isWhole digits isScale room =>
    obtain ⟨c, cs, eq, digit, -⟩ := isWhole.eq_cons
    have noMinus : ∀ more, whole ++ (pointed fraction ++ scale) ++ rest ≠ '-' :: more := by
      rintro more minus
      rw [eq] at minus
      cases minus
      cases digit
    rw [number?.eq_2 _ _ noMinus]
    exact unsigned?_of_parts isWhole digits isScale room ends
  | negative isWhole digits isScale room =>
    obtain ⟨_, read⟩ := unsigned?_of_parts isWhole digits isScale room ends
    rw [List.cons_append, number?, read]
    exact ⟨_, rfl⟩

/-- What is taken as digits are digits. -/
lemma isDigit_of_mem_takeWhile (cs : List Char) : ∀ c ∈ cs.takeWhile Char.isDigit, c.isDigit :=
  fun _ mem => List.mem_takeWhile_imp mem

/-- Digits before a point are read off such digits only. -/
lemma integerDigits?_sound (read : Yields (integerDigits? cs) whole rest) :
    cs = whole ++ rest ∧ IsWhole whole := by
  obtain ⟨shorter, read⟩ := read
  unfold integerDigits? at read
  split at read
  · cases read
    exact ⟨rfl, .inl rfl⟩
  · rename_i c more zero
    split at read
    · rename_i digit
      cases read
      refine ⟨?_, .inr ⟨c, _, rfl, zero, digit, isDigit_of_mem_takeWhile more⟩⟩
      rw [List.cons_append, List.takeWhile_append_dropWhile]
    · cases read
  · cases read

/-- Digits behind a point are read off a point and such digits only. -/
lemma fractionDigits_sound (cs : List Char) :
    cs = pointed (fractionDigits cs).1 ++ (fractionDigits cs).2 ∧
      ∀ c ∈ (fractionDigits cs).1, c.isDigit := by
  unfold fractionDigits
  split
  · rename_i more
    dsimp only
    split
    · exact ⟨rfl, nofun⟩
    · rename_i some
      refine ⟨?_, isDigit_of_mem_takeWhile more⟩
      rw [pointed, if_neg some, List.cons_append, List.takeWhile_append_dropWhile]
  · exact ⟨rfl, nofun⟩

/-- An exponent is read off such an exponent only. -/
lemma exponentDigits_sound (cs : List Char) :
    ∃ scale, cs = scale ++ (exponentDigits cs).2 ∧ IsScale (exponentDigits cs).1 scale := by
  unfold exponentDigits
  split
  · rename_i mark more
    split
    · rename_i marked
      split
      rename_i negative digits eq
      dsimp only
      split
      · exact ⟨[], rfl, .none⟩
      · rename_i some
        have signed : ∃ sign, more = sign ++ digits ∧
            (negative, sign) ∈ [(false, []), (false, ['+']), (true, ['-'])] := by
          split at eq <;> cases eq
          · exact ⟨['-'], rfl, by decide⟩
          · exact ⟨['+'], rfl, by decide⟩
          · exact ⟨[], rfl, by decide⟩
        obtain ⟨sign, rfl, signed⟩ := signed
        refine ⟨mark :: (sign ++ digits.takeWhile Char.isDigit), ?_, .some marked signed ?_
          (isDigit_of_mem_takeWhile digits)⟩
        · rw [List.cons_append, List.append_assoc, List.takeWhile_append_dropWhile]
        · exact fun none => some (List.isEmpty_iff.2 none)
    · exact ⟨[], rfl, .none⟩
  · exact ⟨[], rfl, .none⟩

/-- A number is read off its parts only. -/
lemma unsigned?_sound {negative : Bool} (read : Yields (unsigned? takes negative cs) j rest) :
    ∃ whole fraction exponent scale, cs = whole ++ (pointed fraction ++ scale) ++ rest ∧
      IsWhole whole ∧ (∀ c ∈ fraction, c.isDigit) ∧ IsScale exponent scale ∧
      takes ⟨negative, whole, fraction, exponent⟩ ∧
      j = Number.value ⟨negative, whole, fraction, exponent⟩ := by
  obtain ⟨_, read⟩ := read
  unfold unsigned? at read
  split at read
  · cases read
  · rename_i whole rest₁ _ digits
    dsimp only at read
    split at read
    · rename_i room
      cases read
      obtain ⟨rfl, isWhole⟩ := integerDigits?_sound ⟨_, digits⟩
      obtain ⟨fraction, isFraction⟩ := fractionDigits_sound rest₁
      obtain ⟨scale, eq, isScale⟩ := exponentDigits_sound (fractionDigits rest₁).2
      refine ⟨whole, _, _, scale, ?_, isWhole, isFraction, isScale, room, rfl⟩
      rw [List.append_assoc, List.append_assoc, ← eq, ← fraction]
    · cases read

/-- A number is read only from a way to write it. -/
lemma number?_sound (read : Yields (number? takes cs) j rest) :
    ∃ number, cs = number ++ rest ∧ IsNumber takes j number := by
  obtain ⟨_, read⟩ := read
  unfold number? at read
  split at read
  · split at read
    · cases read
    · rename_i number
      cases read
      obtain ⟨whole, fraction, exponent, scale, rfl, isWhole, digits, isScale, room, rfl⟩ :=
        unsigned?_sound ⟨_, number⟩
      exact ⟨_, rfl, .negative isWhole digits isScale room⟩
  · obtain ⟨whole, fraction, exponent, scale, rfl, isWhole, digits, isScale, room, rfl⟩ :=
      unsigned?_sound ⟨_, read⟩
    exact ⟨_, rfl, .unsigned isWhole digits isScale room⟩

end Reading

end Json

end Monkey
