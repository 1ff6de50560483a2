import Monkey.Syntax.Render

/-!
# Values

What expressions evaluate to, and what can go wrong meanwhile. A function is its code together with
the scope it was made in; two functions are the same only if they come from one evaluation of a
function expression, so each carries an identity.
-/

namespace Monkey

/-- The types of value, as error messages name them. -/
inductive ValueType where
  | integer
  | boolean
  | string
  | null
  | function
  | returned
  | error
deriving DecidableEq, Repr

/-- The name of a type. -/
def ValueType.name : ValueType → String
  | .integer => "INTEGER"
  | .boolean => "BOOLEAN"
  | .string => "STRING"
  | .null => "NULL"
  | .function => "FUNCTION"
  | .returned => "RETURN_VALUE"
  | .error => "ERROR"

/-- What ends an evaluation without a value. -/
inductive RuntimeError where
  | unknownIdentifier (name : String)
  | typeMismatch (left : ValueType) (op : InfixOp) (right : ValueType)
  | unknownInfixOperator (left : ValueType) (op : InfixOp) (right : ValueType)
  | unknownPrefixOperator (op : PrefixOp) (operand : ValueType)
  | notAFunction (found : ValueType)
  | arityMismatch (expected got : Nat)
  | divisionByZero
  | callDepthExceeded (limit : Nat)
deriving DecidableEq, Repr

/-- The text of an error. -/
def RuntimeError.message : RuntimeError → String
  | .unknownIdentifier name => "identifier not found: " ++ name
  | .typeMismatch left op right =>
    "type mismatch: " ++ left.name ++ " " ++ op.text ++ " " ++ right.name
  | .unknownInfixOperator left op right =>
    "unknown operator: " ++ left.name ++ " " ++ op.text ++ " " ++ right.name
  | .unknownPrefixOperator op operand => "unknown operator: " ++ op.text ++ operand.name
  | .notAFunction found => "not a function: " ++ found.name
  | .arityMismatch expected got =>
    "wrong number of arguments: expected " ++ Numeral.ofNat expected ++ ", got "
      ++ Numeral.ofNat got
  | .divisionByZero => "division by zero"
  | .callDepthExceeded limit => "maximum call depth of " ++ Numeral.ofNat limit ++ " exceeded"

/-- A function with the scope it was made in. -/
structure Closure where
  /-- Tells apart functions made by different evaluations. -/
  identity : Nat
  params : List Identifier
  body : Block
  /-- The scope it was made in, named by its place in the store. -/
  scope : Nat

/-- A value. An early return that leaves everything behind, and an error that ended a program, are
handed out as values too. -/
inductive Value where
  | integer (value : Int64)
  | boolean (value : Bool)
  | string (value : String)
  | null
  | function (closure : Closure)
  | returned (value : Value)
  | error (error : RuntimeError)

instance : Inhabited Value := ⟨.null⟩

/-- A function as source text. -/
def Closure.render (f : Closure) : String :=
  "fn(" ++ Identifier.renderParams f.params ++ ") " ++ f.body.render

namespace Value

/-- The type of a value. -/
def type : Value → ValueType
  | .integer _ => .integer
  | .boolean _ => .boolean
  | .string _ => .string
  | .null => .null
  | .function _ => .function
  | .returned _ => .returned
  | .error _ => .error

/-- Whether a condition with this value holds: only null and false do not. -/
def isTruthy : Value → Bool
  | .null | .boolean false => false
  | _ => true

/-- The text of a value. -/
def render : Value → String
  | .integer n => Numeral.ofInt n.toInt
  | .boolean true => "true"
  | .boolean false => "false"
  | .string s => s
  | .null => "null"
  | .function f => f.render
  | .returned v => v.render
  | .error e => "ERROR: " ++ e.message

/-- Whether two values are the same. Functions are the same if they have one identity. -/
def same : Value → Value → Bool
  | .integer a, .integer b => a == b
  | .boolean a, .boolean b => a == b
  | .string a, .string b => a == b
  | .null, .null => true
  | .function f, .function g => f.identity == g.identity
  | .returned a, .returned b => a.same b
  | .error a, .error b => a == b
  | _, _ => false

/-- The value of a constant. -/
def ofLiteral : Literal → Value
  | .integer n => .integer n
  | .boolean b => .boolean b
  | .string s => .string s

/-- A value of the type of integers is one. -/
theorem eq_integer {v : Value} (type : v.type = .integer) : ∃ n, v = .integer n := by
  cases v with
  | integer n => exact ⟨n, rfl⟩
  | _ => cases type

/-- A value of the type of texts is one. -/
theorem eq_string {v : Value} (type : v.type = .string) : ∃ s, v = .string s := by
  cases v with
  | string s => exact ⟨s, rfl⟩
  | _ => cases type

/-- A value of the type of functions is one. -/
theorem eq_function {v : Value} (type : v.type = .function) : ∃ f, v = .function f := by
  cases v with
  | function f => exact ⟨f, rfl⟩
  | _ => cases type

end Value

end Monkey
