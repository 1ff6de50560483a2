import Monkey.Json.Number
import Monkey.Text.Taken

/-!
# Reading JSON

Reads a text that holds one JSON value and nothing else but white space. Each reader takes the
characters it recognises off the front of the text and returns the rest, with the proof that
something was taken; this is what ends the recursion over arrays and objects.
-/

namespace Monkey.Json

open Text (Taken)

/-- The text from its first character that is no white space. -/
def skipSpace (cs : List Char) : List Char := cs.dropWhile isSpace

/-- Skipping space leaves no more text. -/
theorem skipSpace_length_le (cs : List Char) : (skipSpace cs).length ≤ cs.length :=
  (List.dropWhile_suffix isSpace).length_le

/-! ## Strings -/

/-- The character for the rest of an escape, after its backslash. A surrogate counts only as the
first half of a pair. -/
def escape? (cs : List Char) : Option (Taken Char cs) :=
  match cs with
  | '"' :: rest => some ⟨'"', rest, by simp⟩
  | '\\' :: rest => some ⟨'\\', rest, by simp⟩
  | '/' :: rest => some ⟨'/', rest, by simp⟩
  | 'b' :: rest => some ⟨'\x08', rest, by simp⟩
  | 'f' :: rest => some ⟨'\x0c', rest, by simp⟩
  | 'n' :: rest => some ⟨'\n', rest, by simp⟩
  | 'r' :: rest => some ⟨'\r', rest, by simp⟩
  | 't' :: rest => some ⟨'\t', rest, by simp⟩
  | 'u' :: a :: b :: c :: d :: rest =>
    match Numeral.hex? [a, b, c, d] with
    | none => none
    | some high =>
      if 0xDC00 ≤ high ∧ high < 0xE000 then none
      else if 0xD800 ≤ high ∧ high < 0xDC00 then
        match rest with
        | '\\' :: 'u' :: e :: f :: g :: h :: rest' =>
          match Numeral.hex? [e, f, g, h] with
          | none => none
          | some low =>
            if 0xDC00 ≤ low ∧ low < 0xE000 then
              some ⟨Char.ofNat (0x10000 + (high - 0xD800) * 0x400 + (low - 0xDC00)), rest',
                by simp only [List.length_cons]; omega⟩
            else none
        | _ => none
      else some ⟨Char.ofNat high, rest, by simp only [List.length_cons]; omega⟩
  | _ => none

/-- The rest of a string, after its opening quote. A control character has to be escaped. -/
def stringBody? (cs : List Char) : Option (Taken (List Char) cs) :=
  match cs with
  | [] => none
  | '"' :: rest => some ⟨[], rest, by simp⟩
  | '\\' :: rest =>
    match escape? rest with
    | none => none
    | some ⟨c, rest₁, h₁⟩ =>
      match stringBody? rest₁ with
      | none => none
      | some ⟨text, rest₂, h₂⟩ => some ⟨c :: text, rest₂, by simp only [List.length_cons]; omega⟩
  | c :: rest =>
    if c.toNat < 0x20 then none
    else
      match stringBody? rest with
      | none => none
      | some ⟨text, rest₁, h₁⟩ => some ⟨c :: text, rest₁, by simp only [List.length_cons]; omega⟩
termination_by cs.length

/-! ## Numbers -/

/-- The digits of an integer part: a single zero, or digits that do not begin with one. -/
def integerDigits? (cs : List Char) : Option (Taken (List Char) cs) :=
  match cs with
  | '0' :: rest => some ⟨['0'], rest, by simp⟩
  | c :: rest =>
    if c.isDigit then
      some ⟨c :: rest.takeWhile Char.isDigit, rest.dropWhile Char.isDigit,
        Nat.lt_succ_of_le (List.dropWhile_suffix _).length_le⟩
    else none
  | [] => none

/-- The digits of a fraction with the point in front, or nothing if there is no fraction. -/
def fractionDigits (cs : List Char) : List Char × List Char :=
  match cs with
  | '.' :: rest =>
    let digits := rest.takeWhile Char.isDigit
    if digits.isEmpty then ([], cs) else (digits, rest.dropWhile Char.isDigit)
  | _ => ([], cs)

/-- The sign and digits of an exponent, or nothing if there is no exponent. -/
def exponentDigits (cs : List Char) : Option (Bool × List Char) × List Char :=
  match cs with
  | e :: rest =>
    if e = 'e' ∨ e = 'E' then
      let (negative, digits) := match rest with
        | '-' :: more => (true, more)
        | '+' :: more => (false, more)
        | more => (false, more)
      let run := digits.takeWhile Char.isDigit
      if run.isEmpty then (none, cs) else (some (negative, run), digits.dropWhile Char.isDigit)
    else (none, cs)
  | [] => (none, [])

/-- The digits behind a point leave no more text. -/
theorem fractionDigits_length_le (cs : List Char) :
    (fractionDigits cs).2.length ≤ cs.length := by
  unfold fractionDigits
  split
  · rename_i rest
    dsimp only
    split
    · exact Nat.le_refl _
    · exact Nat.le_succ_of_le (List.dropWhile_suffix _).length_le
  · exact Nat.le_refl _

/-- An exponent leaves no more text. -/
theorem exponentDigits_length_le (cs : List Char) :
    (exponentDigits cs).2.length ≤ cs.length := by
  have drop (ds : List Char) : (ds.dropWhile Char.isDigit).length ≤ ds.length :=
    (List.dropWhile_suffix _).length_le
  unfold exponentDigits
  split
  · rename_i e rest
    split
    · split
      rename_i negative digits eq
      have bound : digits.length ≤ rest.length := by
        split at eq <;> cases eq <;> simp
      dsimp only
      split
      · exact Nat.le_refl _
      · exact Nat.le_succ_of_le (Nat.le_trans (drop _) bound)
    · exact Nat.le_refl _
  · exact Nat.le_refl _

section Reader

/-! A reader need not take all numbers, since there may be some that it has no room for. -/

variable (takes : Number → Bool)

/-- A number without its sign. -/
def unsigned? (negative : Bool) (cs : List Char) : Option (Taken Json cs) :=
  match integerDigits? cs with
  | none => none
  | some ⟨whole, rest, h⟩ =>
    let number : Number :=
      ⟨negative, whole, (fractionDigits rest).1, (exponentDigits (fractionDigits rest).2).1⟩
    if takes number then
      some ⟨number.value, (exponentDigits (fractionDigits rest).2).2,
        Nat.lt_of_le_of_lt (exponentDigits_length_le _)
          (Nat.lt_of_le_of_lt (fractionDigits_length_le _) h)⟩
    else none

/-- A number. -/
def number? (cs : List Char) : Option (Taken Json cs) :=
  match cs with
  | '-' :: rest =>
    match unsigned? takes true rest with
    | none => none
    | some ⟨number, rest', h⟩ => some ⟨number, rest', Nat.lt_succ_of_lt h⟩
  | cs => unsigned? takes false cs

/-! ## Values -/

/-- A value that holds no other value, from a text that does not begin with white space. -/
def scalar? (cs : List Char) : Option (Taken Json cs) :=
  match cs with
  | 'n' :: 'u' :: 'l' :: 'l' :: rest => some ⟨.null, rest, by simp only [List.length_cons]; omega⟩
  | 't' :: 'r' :: 'u' :: 'e' :: rest =>
    some ⟨.bool true, rest, by simp only [List.length_cons]; omega⟩
  | 'f' :: 'a' :: 'l' :: 's' :: 'e' :: rest =>
    some ⟨.bool false, rest, by simp only [List.length_cons]; omega⟩
  | '"' :: rest =>
    match stringBody? rest with
    | none => none
    | some ⟨text, rest', h⟩ => some ⟨.string (String.ofList text), rest', Nat.lt_succ_of_lt h⟩
  | cs => number? takes cs

mutual

/-- A value, after white space. -/
def value? (cs : List Char) : Option (Taken Json cs) :=
  have spaces := skipSpace_length_le cs
  match h : skipSpace cs with
  | '[' :: rest =>
    have shorter : rest.length < cs.length := by rw [h] at spaces; exact spaces
    match items? rest with
    | none => none
    | some ⟨items, rest', h'⟩ => some ⟨.array items, rest', Nat.lt_trans h' shorter⟩
  | '\x7b' :: rest =>
    have shorter : rest.length < cs.length := by rw [h] at spaces; exact spaces
    match members? rest with
    | none => none
    | some ⟨members, rest', h'⟩ => some ⟨.object members, rest', Nat.lt_trans h' shorter⟩
  | text =>
    match scalar? takes text with
    | none => none
    | some ⟨scalar, rest, h'⟩ => some ⟨scalar, rest, by rw [h] at spaces; omega⟩
termination_by (cs.length, 0)

/-- The items of an array and its end, after the opening bracket. -/
def items? (cs : List Char) : Option (Taken (List Json) cs) :=
  have spaces := skipSpace_length_le cs
  match h : skipSpace cs with
  | ']' :: rest => some ⟨[], rest, by rw [h] at spaces; exact spaces⟩
  | _ =>
    match value? cs with
    | none => none
    | some ⟨item, rest, h₁⟩ =>
      match moreItems? rest with
      | none => none
      | some ⟨others, rest', h₂⟩ => some ⟨item :: others, rest', Nat.lt_trans h₂ h₁⟩
termination_by (cs.length, 1)

/-- The items of an array after one of them, each behind a comma, and the end of the array. -/
def moreItems? (cs : List Char) : Option (Taken (List Json) cs) :=
  have spaces := skipSpace_length_le cs
  match h : skipSpace cs with
  | ']' :: rest => some ⟨[], rest, by rw [h] at spaces; exact spaces⟩
  | ',' :: rest =>
    have shorter : rest.length < cs.length := by rw [h] at spaces; exact spaces
    match value? rest with
    | none => none
    | some ⟨item, rest₁, h₁⟩ =>
      match moreItems? rest₁ with
      | none => none
      | some ⟨others, rest₂, h₂⟩ =>
        some ⟨item :: others, rest₂, Nat.lt_trans h₂ (Nat.lt_trans h₁ shorter)⟩
  | _ => none
termination_by (cs.length, 1)

/-- The members of an object and its end, after the opening brace. -/
def members? (cs : List Char) : Option (Taken (List (String × Json)) cs) :=
  have spaces := skipSpace_length_le cs
  match h : skipSpace cs with
  | '\x7d' :: rest => some ⟨[], rest, by rw [h] at spaces; exact spaces⟩
  | _ =>
    match member? cs with
    | none => none
    | some ⟨first, rest, h₁⟩ =>
      match moreMembers? rest with
      | none => none
      | some ⟨others, rest', h₂⟩ => some ⟨first :: others, rest', Nat.lt_trans h₂ h₁⟩
termination_by (cs.length, 2)

/-- The members of an object after one of them, each behind a comma, and the end of the object. -/
def moreMembers? (cs : List Char) : Option (Taken (List (String × Json)) cs) :=
  have spaces := skipSpace_length_le cs
  match h : skipSpace cs with
  | '\x7d' :: rest => some ⟨[], rest, by rw [h] at spaces; exact spaces⟩
  | ',' :: rest =>
    have shorter : rest.length < cs.length := by rw [h] at spaces; exact spaces
    match member? rest with
    | none => none
    | some ⟨next, rest₁, h₁⟩ =>
      match moreMembers? rest₁ with
      | none => none
      | some ⟨others, rest₂, h₂⟩ =>
        some ⟨next :: others, rest₂, Nat.lt_trans h₂ (Nat.lt_trans h₁ shorter)⟩
  | _ => none
termination_by (cs.length, 2)

/-- A member of an object: a string, a colon and a value. -/
def member? (cs : List Char) : Option (Taken (String × Json) cs) :=
  have spaces := skipSpace_length_le cs
  match h : skipSpace cs with
  | '"' :: rest =>
    match stringBody? rest with
    | none => none
    | some ⟨key, rest₁, h₁⟩ =>
      have spaces₁ := skipSpace_length_le rest₁
      match h' : skipSpace rest₁ with
      | ':' :: rest₂ =>
        have shorter : rest₂.length < cs.length := by
          rw [h] at spaces
          rw [h'] at spaces₁
          simp only [List.length_cons] at spaces spaces₁
          omega
        match value? rest₂ with
        | none => none
        | some ⟨value, rest₃, h₃⟩ =>
          some ⟨(String.ofList key, value), rest₃, Nat.lt_trans h₃ shorter⟩
      | _ => none
  | _ => none
termination_by (cs.length, 1)

end

/-- The value that a text holds; `none` if the text is not one JSON value between white space. -/
def read? (text : String) : Option Json :=
  match value? takes text.toList with
  | some ⟨value, rest, _⟩ => if (skipSpace rest).isEmpty then some value else none
  | none => none

end Reader

end Monkey.Json
