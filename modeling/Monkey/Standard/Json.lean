import Monkey.Json.Library
import Monkey.Standard.Double
import Monkey.Standard.Json.Decoding
import Monkey.Standard.Json.Encoding
import Monkey.Standard.Json.Read
import Monkey.Standard.Json.Write

/-!
# The standard library for JSON

The library that the program runs with: its texts may be nested 127 deep, and its numbers are those
that a double can be close to.
-/

namespace Monkey

namespace Json.Number

/-- The power of ten that an exponent stands for. -/
def power : Option (Bool × List Char) → Int
  | none => 0
  | some (negative, digits) =>
    let magnitude : Int := Nat.ofDigitChars 10 digits 0
    if negative then -magnitude else magnitude

/-- Whether a number is in the range of a double, as a word of 64 bits scaled by a power of ten. -/
def isFinite (n : Number) : Bool :=
  let (word, shift) := Double.scaled n.whole n.fraction
  Double.isFiniteScaled word (shift + power n.exponent)

end Json.Number

/-- What stands under the name of a variant. -/
def Json.content : Json → Json
  | .object [(_, content)] => content
  | j => j

namespace Kind

/-- A value of a kind as JSON. -/
def toJson : (k : Kind) → k.Value → Json
  | document => Document.toJson
  | statements => fun ss => .array (Stmt.listToJson ss)
  | statement => Stmt.toJson
  | letNode => fun (x, value, place) => (Stmt.letStmt x value place).toJson.content
  | returnNode => fun (value, place) => (Stmt.returnStmt value place).toJson.content
  | exprNode => fun (value, place) => (Stmt.exprStmt value place).toJson.content
  | block => Block.toJson
  | expression => Expr.toJson
  | constant => fun (value, place) => (Expr.literal value place).toJson.content
  | prefixNode => fun (op, operand, place) => (Expr.unary op operand place).toJson.content
  | infixNode => fun (op, left, right, place) => (Expr.binary op left right place).toJson.content
  | ifNode => fun (condition, consequence, other, place) =>
    (Expr.conditional condition consequence other place).toJson.content
  | functionNode => fun (params, body, place) => (Expr.function params body place).toJson.content
  | callNode => fun (callee, args, place) => (Expr.call callee args place).toJson.content
  | identifier => Identifier.toJson
  | parameters => fun xs => .array (xs.map Identifier.toJson)
  | arguments => fun es => .array (Expr.listToJson es)
  | alternative => fun b : Option Block => b.elim .null Block.toJson
  | literal => Literal.toJson
  | prefixOp => fun op => .string op.encodedName
  | infixOp => fun op => .string op.encodedName
  | diagnostic => Diagnostic.toJson
  | hint => fun help : Option String => help.elim .null .string
  | span => Span.toJson
  | word32 => fun n : UInt32 => .ofNat n.toNat
  | word64 => Json.ofNat
  | integer => fun n : Int64 => .integer n.toInt
  | boolean => .bool
  | text => .string

end Kind

namespace JsonLibrary

/-- How deep the arrays and objects of a text may be nested. -/
def standardLimit : Nat := 127

/-- The library that the program runs with. -/
def standard : JsonLibrary where
  codec k := ⟨k.toJson, k.ofJson?⟩
  isNoContent := Json.isNoContent
  takes := Json.Number.isFinite
  limit := some standardLimit
  read? text := (Json.read? Json.Number.isFinite text).filter fun j => j.depth ≤ standardLimit
  pretty j := .ok j.pretty
  compact j := .ok j.compact
  record members :=
    let sorted := members.mergeSort fun a b => a.1 ≤ b.1
    Json.compact (.object (sorted.map fun (key, value) => (key, .string value)))

end JsonLibrary

end Monkey
