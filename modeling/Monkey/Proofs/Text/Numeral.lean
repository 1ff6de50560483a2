import Monkey.Text.Numeral
import Mathlib.Tactic.Lemma

/-!
# Numerals without a sign

The numeral of a number that is not negative has digits only and reads as the number; and digits
only read as a number that is not negative. Main statements: `int64?_ofInt` and `int64?_nonneg`.
-/

namespace Monkey.Numeral

/-- The digits of a number are digits. -/
lemma isDigit_of_mem_toDigits {n : Nat} {c : Char} (mem : c ∈ Nat.toDigits 10 n) : c.isDigit :=
  Nat.isDigit_of_mem_toDigits (by decide) (by decide) mem

/-- A numeral is a digit and further digits. -/
lemma ofNat_eq_cons (n : Nat) :
    ∃ c cs, (ofNat n).toList = c :: cs ∧ c.isDigit ∧ ∀ c ∈ cs, c.isDigit := by
  rw [ofNat, String.toList_ofList]
  cases eq : Nat.toDigits 10 n with
  | nil => exact absurd eq Nat.toDigits_ne_nil
  | cons c cs =>
    have digits : ∀ c ∈ Nat.toDigits 10 n, c.isDigit := fun _ => isDigit_of_mem_toDigits
    rw [eq] at digits
    exact ⟨c, cs, rfl, List.forall_mem_cons.1 digits⟩

/-- Digits are read without a sign. -/
lemma integer?_of_digits {cs : List Char} (digits : ∀ c ∈ cs, c.isDigit) :
    integer? cs = (digits? cs).map Int.ofNat := by
  unfold integer?
  split
  · cases digits '-' List.mem_cons_self
  · cases digits '+' List.mem_cons_self
  · rfl

/-- A word is the number that it was made of. -/
lemma toInt_of_toInt64? {m : Int} {n : Int64} (found : toInt64? m = some n) : n.toInt = m := by
  unfold toInt64? at found
  split at found
  · rename_i inRange
    cases found
    exact Int64.toInt_ofInt_of_le inRange.1 (Int.lt_of_le_of_lt inRange.2 (by decide))
  · cases found

/-- The numeral of a number reads as the number. -/
lemma int64?_ofInt {n : Int64} (h : 0 ≤ n.toInt) : int64? (ofInt n.toInt) = some n := by
  obtain ⟨k, eq⟩ := Int.eq_ofNat_of_zero_le h
  have text : (ofInt n.toInt).toList = Nat.toDigits 10 k := by
    rw [eq]
    exact String.toList_ofList
  rw [int64?, text, integer?_of_digits fun _ => isDigit_of_mem_toDigits, digits?_toDigits,
    Option.map_some, Option.bind_some, ← toInt64?_toInt n, eq]
  rfl

/-- A numeral without a sign denotes no negative number. -/
lemma int64?_nonneg {text : String} {n : Int64} (digits : ∀ c ∈ text.toList, c.isDigit)
    (found : int64? text = some n) : 0 ≤ n.toInt := by
  obtain ⟨m, read, word⟩ := Option.bind_eq_some_iff.1 found
  rw [integer?_of_digits digits] at read
  obtain ⟨k, _, rfl⟩ := Option.map_eq_some_iff.1 read
  rw [toInt_of_toInt64? word]
  exact Int.natCast_nonneg k

end Monkey.Numeral
