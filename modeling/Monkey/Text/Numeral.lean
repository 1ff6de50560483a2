/-!
# Decimal numerals

Whole numbers as ASCII decimal digits: printing them, and reading them with an optional sign within
the range of a word. A numeral that is out of range reads as nothing, never as another number.
-/

namespace Monkey.Numeral

/-- The shortest run of digits that denotes `n`. -/
def ofNat (n : Nat) : String := String.ofList (Nat.toDigits 10 n)

/-- The digits of the magnitude, after a minus sign if the number is negative. -/
def ofInt : Int → String
  | .ofNat n => ofNat n
  | .negSucc n => "-" ++ ofNat (n + 1)

/-- The number that a run of ASCII digits denotes; it may begin with zeros, but must not be
empty. -/
def digits? (cs : List Char) : Option Nat :=
  if !cs.isEmpty && cs.all Char.isDigit then some (Nat.ofDigitChars 10 cs 0) else none

/-- The number that digits after an optional sign denote. -/
def integer? : List Char → Option Int
  | '-' :: cs => (digits? cs).map fun n => -(n : Int)
  | '+' :: cs => (digits? cs).map Int.ofNat
  | cs => (digits? cs).map Int.ofNat

/-- The number that digits after an optional plus sign denote. -/
def natural? : List Char → Option Nat
  | '+' :: cs => digits? cs
  | cs => digits? cs

/-- The value of a hexadecimal digit. -/
def hexDigit? (c : Char) : Option Nat :=
  if c.isDigit then some (c.toNat - '0'.toNat)
  else if 'a' ≤ c ∧ c ≤ 'f' then some (c.toNat - 'a'.toNat + 10)
  else if 'A' ≤ c ∧ c ≤ 'F' then some (c.toNat - 'A'.toNat + 10)
  else none

/-- The number that hexadecimal digits denote. -/
def hex? (cs : List Char) : Option Nat :=
  cs.foldlM (fun n c => (hexDigit? c).map (n * 16 + ·)) 0

/-- The word with value `n`, if a signed word of 64 bits has that value. -/
def toInt64? (n : Int) : Option Int64 :=
  if Int64.minValue.toInt ≤ n ∧ n ≤ Int64.maxValue.toInt then some (Int64.ofInt n) else none

/-- Reads a signed numeral in the range of 64 bits. -/
def int64? (text : String) : Option Int64 := (integer? text.toList).bind toInt64?

/-- How many words of so many bits there are. -/
def words (bits : Nat) : Nat := Nat.pow 2 bits

/-- Reads an unsigned numeral in the range of so many bits. -/
def unsigned? (bits : Nat) (text : String) : Option Nat :=
  (natural? text.toList).filter (· < words bits)

/-- The digits of a number read as the number. -/
theorem digits?_toDigits (n : Nat) : digits? (Nat.toDigits 10 n) = some n := by
  have nonempty : Nat.toDigits 10 n ≠ [] := Nat.toDigits_ne_nil
  have digits : ∀ c ∈ Nat.toDigits 10 n, c.isDigit := fun c h =>
    Nat.isDigit_of_mem_toDigits (by decide) (by decide) h
  simp [digits?, nonempty, List.all_eq_true.2 digits, Nat.ofDigitChars_toDigits]

/-- A word is made of the number that it is. -/
theorem toInt64?_toInt (n : Int64) : toInt64? n.toInt = some n := by
  rw [toInt64?, if_pos ⟨n.minValue_le_toInt, n.toInt_le⟩, Int64.ofInt_toInt]

end Monkey.Numeral
