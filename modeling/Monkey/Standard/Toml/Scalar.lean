import Monkey.Standard.Double
import Monkey.Standard.Toml

/-!
# TOML numbers, truth values and dates

The values that are written as a bare run of characters. Single underscores may stand between the
digits of a number, and a number has to fit: an integer into a signed word of 64 bits, and one with
a fraction or an exponent into a double, unless it is negative.
-/

namespace Monkey.Toml

/-- The digits of a run, without the underscores between them. -/
def digits? (isDigit : Char → Bool) : List Char → Option (List Char)
  | [] => none
  | [c] => if isDigit c then some [c] else none
  | c :: '_' :: cs => if isDigit c then (digits? isDigit cs).map (c :: ·) else none
  | c :: cs => if isDigit c then (digits? isDigit cs).map (c :: ·) else none

/-- The digits of a decimal number, which begin with a zero only if there is no other. -/
def decimal? (cs : List Char) : Option (List Char) :=
  (digits? Char.isDigit cs).filter fun ds => ds.length = 1 || ds.head? != some '0'

/-- The number that digits of a base up to 16 denote. -/
def based? (base : Nat) (cs : List Char) : Option Nat := do
  let isDigit (c : Char) := (Numeral.hexDigit? c).any (· < base)
  (← digits? isDigit cs).foldlM (fun n c => (Numeral.hexDigit? c).map (n * base + ·)) 0

/-- The number that digits after an optional sign denote, if `digits?` takes them. -/
def signed? (digits? : List Char → Option (List Char)) : List Char → Option Int
  | '-' :: cs => (digits? cs).map fun ds => -(Nat.ofDigitChars 10 ds 0 : Int)
  | '+' :: cs => (digits? cs).map fun ds => (Nat.ofDigitChars 10 ds 0 : Int)
  | cs => (digits? cs).map fun ds => (Nat.ofDigitChars 10 ds 0 : Int)

/-- The number in a run: decimal digits after an optional sign, or the digits of another base after
its mark. -/
def integer? : List Char → Option Int
  | '0' :: 'x' :: cs => (based? 16 cs).map Int.ofNat
  | '0' :: 'o' :: cs => (based? 8 cs).map Int.ofNat
  | '0' :: 'b' :: cs => (based? 2 cs).map Int.ofNat
  | cs => signed? decimal? cs

/-- The number in an exponent, after its mark. -/
def exponent? (cs : List Char) : Option Int := signed? (digits? Char.isDigit) cs

/-- The mantissa and the power of ten of a number with a fraction, an exponent or both, and without
a sign. -/
def fractional? (cs : List Char) : Option (Nat × Int) := do
  let isPart (c : Char) := c.isDigit || c == '_'
  let whole ← decimal? (cs.takeWhile isPart)
  match cs.dropWhile isPart with
  | 'e' :: power | 'E' :: power => return (Nat.ofDigitChars 10 whole 0, ← exponent? power)
  | '.' :: others =>
    let fraction ← digits? Char.isDigit (others.takeWhile isPart)
    let power ← match others.dropWhile isPart with
      | [] => some 0
      | 'e' :: power | 'E' :: power => exponent? power
      | _ => none
    return (Nat.ofDigitChars 10 (whole ++ fraction) 0, power - fraction.length)
  | _ => none

/-- Whether a run says that there is no finite number. -/
def isNotFinite (cs : List Char) : Bool := cs == ['i', 'n', 'f'] || cs == ['n', 'a', 'n']

/-- Whether a run without a sign is a number with a fraction, an exponent or both, and in the range
of a double. -/
def isUnsignedFloat (cs : List Char) : Bool :=
  isNotFinite cs || (fractional? cs).any fun (mantissa, power) => Double.isFinite mantissa power

/-- Whether a run is a number with a fraction, an exponent or both, or one that is not finite. Of
the numbers beyond the range of a double only the negative ones count. -/
def isFloat : List Char → Bool
  | '-' :: cs => isNotFinite cs || (fractional? cs).isSome
  | '+' :: cs => isUnsignedFloat cs
  | cs => isUnsignedFloat cs

/-! ## Dates and times -/

/-- The number that just two digits denote, if it is within bounds. -/
def pair? (low high : Nat) (a b : Char) : Option Nat :=
  (Numeral.digits? [a, b]).filter fun n => low ≤ n && n ≤ high

/-- How many days a month has. -/
def daysIn (year month : Nat) : Nat :=
  if month = 2 then if year % 4 = 0 ∧ (year % 100 ≠ 0 ∨ year % 400 = 0) then 29 else 28
  else if month = 4 ∨ month = 6 ∨ month = 9 ∨ month = 11 then 30
  else 31

/-- What follows a date at the front of a run. -/
def afterDate? : List Char → Option (List Char)
  | a :: b :: c :: d :: '-' :: e :: f :: '-' :: g :: h :: rest => do
    let month ← pair? 1 12 e f
    let day ← pair? 1 31 g h
    if day ≤ daysIn (← Numeral.digits? [a, b, c, d]) month then some rest else none
  | _ => none

/-- What follows a time at the front of a run. -/
def afterTime? : List Char → Option (List Char)
  | a :: b :: ':' :: c :: d :: ':' :: e :: f :: rest => do
    let _ ← pair? 0 23 a b
    let _ ← pair? 0 59 c d
    let _ ← pair? 0 60 e f
    match rest with
    | '.' :: digits =>
      if digits.takeWhile Char.isDigit = [] then none else some (digits.dropWhile Char.isDigit)
    | _ => some rest
  | _ => none

/-- Whether a run is the distance of a local time from the universal one, or empty. -/
def isOffset : List Char → Bool
  | [] | ['Z'] | ['z'] => true
  | [sign, a, b, ':', c, d] =>
    (sign == '+' || sign == '-') && (pair? 0 23 a b).isSome && (pair? 0 59 c d).isSome
  | _ => false

/-- Whether a run is a date, a time, or both. -/
def isDateTime (cs : List Char) : Bool :=
  match afterDate? cs with
  | some [] => true
  | some (mark :: time) =>
    (mark == 'T' || mark == 't' || mark == ' ') && (afterTime? time).any isOffset
  | none => afterTime? cs == some []

/-- The value that a bare run of characters denotes. -/
def scalar? (cs : List Char) : Option Toml :=
  if cs = "true".toList then some (.boolean true)
  else if cs = "false".toList then some (.boolean false)
  else if isDateTime cs then some (.dateTime (String.ofList cs))
  else if isFloat cs then some (.float (String.ofList cs))
  else ((integer? cs).bind Numeral.toInt64?).map .integer

end Monkey.Toml
