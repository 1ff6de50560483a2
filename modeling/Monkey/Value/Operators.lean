import Monkey.Value

/-!
# Operators

What the operators give for the values of their operands. Integers are words of 64 bits: results
wrap around, and division rounds toward zero.
-/

namespace Monkey

/-- An operator in front of an operand. Every value has a negation as a truth value. -/
def PrefixOp.apply (op : PrefixOp) (operand : Value) : Except RuntimeError Value :=
  match op, operand with
  | .not, v => .ok (.boolean !v.isTruthy)
  | .negate, .integer n => .ok (.integer (-n))
  | .negate, v => .error (.unknownPrefixOperator .negate v.type)

/-- An operator between two integers. -/
def InfixOp.applyIntegers (op : InfixOp) (a b : Int64) : Except RuntimeError Value :=
  match op with
  | .add => .ok (.integer (a + b))
  | .sub => .ok (.integer (a - b))
  | .mul => .ok (.integer (a * b))
  | .div => if b = 0 then .error .divisionByZero else .ok (.integer (a / b))
  | .lt => .ok (.boolean (a < b))
  | .gt => .ok (.boolean (b < a))
  | .eq => .ok (.boolean (a == b))
  | .ne => .ok (.boolean (a != b))

/-- An operator between two strings: they can be joined and compared for equality. -/
def InfixOp.applyStrings (op : InfixOp) (a b : String) : Except RuntimeError Value :=
  match op with
  | .add => .ok (.string (a ++ b))
  | .eq => .ok (.boolean (a == b))
  | .ne => .ok (.boolean (a != b))
  | op => .error (.unknownInfixOperator .string op .string)

/-- An operator between two operands. Operands of one other type can only be compared for
equality, operands of two types not even that. -/
def InfixOp.apply (op : InfixOp) (left right : Value) : Except RuntimeError Value :=
  match left, right with
  | .integer a, .integer b => op.applyIntegers a b
  | .string a, .string b => op.applyStrings a b
  | left, right =>
    if left.type ≠ right.type then .error (.typeMismatch left.type op right.type)
    else
      match op with
      | .eq => .ok (.boolean (left.same right))
      | .ne => .ok (.boolean !left.same right)
      | op => .error (.unknownInfixOperator left.type op right.type)

end Monkey
