import Monkey.Json
import Monkey.Text.Numeral

/-!
# Numbers in JSON

A number as it is written, by its parts, and the value that it stands for.
-/

namespace Monkey.Json

/-- A number by the parts that it is written with. -/
structure Number where
  negative : Bool
  whole : List Char
  fraction : List Char
  /-- The sign and the digits of the exponent, if there is one. -/
  exponent : Option (Bool × List Char)

namespace Number

/-- The value of a number. A number without fraction and exponent is an integer, except that a
negative zero is none. -/
def value (n : Number) : Json :=
  let magnitude := Nat.ofDigitChars 10 n.whole 0
  if n.fraction.isEmpty && n.exponent.isNone && !(n.negative && magnitude == 0) then
    .integer (if n.negative then -magnitude else magnitude)
  else
    let sign := if n.negative then ['-'] else []
    let point := if n.fraction.isEmpty then [] else '.' :: n.fraction
    let scale := match n.exponent with
      | none => []
      | some (minus, digits) => 'e' :: (if minus then '-' :: digits else digits)
    .decimal (String.ofList (sign ++ n.whole ++ point ++ scale))

end Number

end Monkey.Json
