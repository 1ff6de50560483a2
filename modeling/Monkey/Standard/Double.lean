import Monkey.Text.Numeral

/-!
# The range of doubles

Which numbers in decimal notation a floating-point number of 64 bits can hold: those that do not
round to infinity. Only magnitudes are looked at, and they are exact. There are two readings of a
number. The exact one rounds once; the scaled one first rounds a whole number of 64 bits and a power
of ten and then their product, so that the two differ next to the greatest double.
-/

namespace Monkey.Double

/-- The least number that rounds to no finite double: halfway between the greatest double and the
next power of two. -/
def limit : Nat := Nat.pow 2 1024 - Nat.pow 2 970

/-- How many bits the significand of a double has. -/
def precision : Nat := 53

/-- The quotient rounded to the nearest whole number, a half to the even neighbour. -/
def roundDiv (n d : Nat) : Nat :=
  if 2 * (n % d) < d ∨ (2 * (n % d) = d ∧ n / d % 2 = 0) then n / d else n / d + 1

/-- The nearest number that a double can have below its limit, of two the one with the even
significand. -/
def round (n : Nat) : Nat :=
  let unit := Nat.pow 2 (n.log2 + 1 - precision)
  roundDiv n unit * unit

/-- Whether `mantissa · 10 ^ exponent` rounds to a finite double. The number of digits decides
except near the limit, so that no huge power is computed. -/
def isFinite (mantissa : Nat) (exponent : Int) : Bool :=
  let digits := (Nat.toDigits 10 mantissa).length
  if mantissa = 0 ∨ digits + exponent ≤ 300 then true
  else if digits + exponent > 310 then false
  else mantissa * Nat.pow 10 exponent.toNat < limit * Nat.pow 10 (-exponent).toNat

/-! ## Scaled words -/

/-- The word that digits continue `n` to as long as it fits into 64 bits, and the digits that are
left. -/
def fill (n : Nat) : List Char → Nat × List Char
  | [] => (n, [])
  | c :: digits =>
    let next := Nat.ofDigitChars 10 [c] n
    if next < Numeral.words 64 then fill next digits else (n, c :: digits)

/-- The digits around a decimal point as a word and a power of ten. The digits that no longer fit
are worth a power of ten each before the point, and nothing behind it. -/
def scaled (whole fraction : List Char) : Nat × Int :=
  let (n, surplus) := fill 0 whole
  let (word, dropped) := fill n fraction
  (word, surplus.length + dropped.length - fraction.length)

/-- Whether the double next to a word of 64 bits is in the range of a double also when it is
multiplied by the double next to a power of ten. -/
def isFiniteScaled (word : Nat) (exponent : Int) : Bool :=
  word == 0 || (exponent ≤ 308 && round word * round (Nat.pow 10 exponent.toNat) < limit)

/-! ## Rounding -/

/-- A rounded quotient is at most half a unit away. -/
theorem roundDiv_near (n : Nat) {d : Nat} (h : 0 < d) :
    2 * n ≤ 2 * (roundDiv n d * d) + d ∧ 2 * (roundDiv n d * d) ≤ 2 * n + d := by
  have whole := Nat.div_add_mod' n d
  have below := Nat.mod_lt n h
  unfold roundDiv
  split
  · omega
  · rw [Nat.add_mul, Nat.one_mul]
    omega

/-- A double holds every whole number that its significand has room for. -/
theorem round_eq_self {n : Nat} (h : n.log2 < precision) : round n = n := by
  unfold round
  rw [Nat.sub_eq_zero_of_le h]
  simp [roundDiv, Nat.mod_one]

end Monkey.Double
