import Monkey.Store
import Monkey.Kind
import Monkey.Text.Quoted

/-!
# Dumps of values and scopes

A value or a scope written with its constructors, for inspection. A function shows its source and
not its scope, which may hold the function itself.
-/

namespace Monkey

/-- An error with the names of its parts. -/
def RuntimeError.dump : RuntimeError → String
  | .unknownIdentifier name =>
    "UnknownIdentifier \x7b name: " ++ Text.quoted name ++ " \x7d"
  | .typeMismatch left op right =>
    "TypeMismatch \x7b left: " ++ Text.quoted left.name ++ ", op: " ++ op.encodedName
      ++ ", right: " ++ Text.quoted right.name ++ " \x7d"
  | .unknownInfixOperator left op right =>
    "UnknownInfixOperator \x7b left: " ++ Text.quoted left.name ++ ", op: " ++ op.encodedName
      ++ ", right: " ++ Text.quoted right.name ++ " \x7d"
  | .unknownPrefixOperator op operand =>
    "UnknownPrefixOperator \x7b op: " ++ op.encodedName ++ ", operand: "
      ++ Text.quoted operand.name ++ " \x7d"
  | .notAFunction found => "NotAFunction \x7b type_name: " ++ Text.quoted found.name ++ " \x7d"
  | .arityMismatch expected got =>
    "ArityMismatch \x7b expected: " ++ Numeral.ofNat expected ++ ", got: " ++ Numeral.ofNat got
      ++ " \x7d"
  | .divisionByZero => "DivisionByZero"
  | .callDepthExceeded limit =>
    "CallDepthExceeded \x7b limit: " ++ Numeral.ofNat limit ++ " \x7d"

/-- A value with its constructors. -/
def Value.dump : Value → String
  | .integer n => "Integer(" ++ Numeral.ofInt n.toInt ++ ")"
  | .boolean true => "Bool(true)"
  | .boolean false => "Bool(false)"
  | .string s => "String(" ++ Text.quoted s ++ ")"
  | .null => "Null"
  | .function f => "Function(" ++ f.render ++ ")"
  | .returned v => "ReturnValue(" ++ v.dump ++ ")"
  | .error e => "Error(" ++ e.dump ++ ")"

/-- A scope with the names it binds itself. -/
def Store.dump (s : Store) (scope : Nat) : String :=
  "Environment \x7b names: [" ++ ", ".intercalate ((s.names scope).map Text.quoted)
    ++ "], enclosed: " ++ (if s.isEnclosed scope then "true" else "false") ++ " \x7d"

end Monkey
