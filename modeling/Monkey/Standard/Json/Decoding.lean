import Monkey.Kind
import Monkey.Standard.Json.Parts

/-!
# Values from JSON

Reads values of all kinds back. The fields of a node may come in any order, among members of other
names, or as an array of them in their order; a field that is given twice or is missing makes the
value unreadable, except that a missing alternative or hint is none. A document is always an object.
-/

namespace Monkey

open Json (Inner)

/-- The operator in front of an operand with a name. -/
def PrefixOp.ofName? : String → Option PrefixOp
  | "Negate" => some .negate
  | "Not" => some .not
  | _ => none

/-- The operator between two operands with a name. -/
def InfixOp.ofName? : String → Option InfixOp
  | "Add" => some .add
  | "Sub" => some .sub
  | "Mul" => some .mul
  | "Div" => some .div
  | "Lt" => some .lt
  | "Gt" => some .gt
  | "Eq" => some .eq
  | "Ne" => some .ne
  | _ => none

namespace Kind

section Assembling

/-! A value of a kind is put together from the values inside, however those are read. -/

variable {j : Json} (read : (kind : Kind) → Inner j → Option kind.Value)

/-- The value of a field, which may be missing. -/
def field (part : String → Option (Inner j)) (key : String) (kind : Kind) : Option kind.Value :=
  (part key).elim kind.absent? (read kind)

/-- The values of an array. -/
def row (kind : Kind) : Option (List kind.Value) :=
  j.elements?.bind fun items => items.mapM (read kind)

/-- A block. -/
def asBlock : Option Block := do
  let part ← j.fields? ["statements", "span"]
  return ⟨← field read part "statements" statements, ← field read part "span" span⟩

/-- A statement with the content of a variant. -/
def asStatement (tag : String) (content : Inner j) : Option Stmt :=
  match tag with
  | "Let" => (read letNode content).map fun (x, value, place) => .letStmt x value place
  | "Return" => (read returnNode content).map fun (value, place) => .returnStmt value place
  | "Expr" => (read exprNode content).map fun (value, place) => .exprStmt value place
  | _ => none

/-- An expression with the content of a variant. -/
def asExpression (tag : String) (content : Inner j) : Option Expr :=
  match tag with
  | "Literal" => (read constant content).map fun (value, place) => .literal value place
  | "Identifier" => (read identifier content).map .identifier
  | "Prefix" => (read prefixNode content).map fun (op, operand, place) => .unary op operand place
  | "Infix" =>
    (read infixNode content).map fun (op, left, right, place) => .binary op left right place
  | "If" => (read ifNode content).map fun (condition, consequence, other, place) =>
    .conditional condition consequence other place
  | "Function" =>
    (read functionNode content).map fun (params, body, place) => .function params body place
  | "Call" => (read callNode content).map fun (callee, args, place) => .call callee args place
  | _ => none

/-- A constant with the content of a variant. -/
def asLiteral (tag : String) (content : Inner j) : Option Literal :=
  match tag with
  | "Integer" => (read integer content).map .integer
  | "Bool" => (read boolean content).map .boolean
  | "String" => (read text content).map .string
  | _ => none

/-- A diagnostic. -/
def asDiagnostic : Option Diagnostic := do
  let part ← j.fields? ["diag_version", "code", "message", "span", "file", "line", "column",
    "length", "snippet", "label", "help"]
  return {
    version := ← field read part "diag_version" word32
    code := ← field read part "code" text
    message := ← field read part "message" text
    span := ← field read part "span" span
    file := ← field read part "file" text
    line := ← field read part "line" word64
    column := ← field read part "column" word64
    length := ← field read part "length" word64
    snippet := ← field read part "snippet" text
    label := ← field read part "label" text
    help := ← field read part "help" hint }

/-- A value of a kind. -/
def assemble : (k : Kind) → Option k.Value
  | document =>
    if j.isObject then do
      let part ← j.fields? ["ast_version", "statements"]
      return ⟨← field read part "ast_version" word32,
        ⟨← field read part "statements" statements⟩⟩
    else none
  | statements => row read statement
  | statement => j.variant?.bind fun (tag, content) => asStatement read tag content
  | letNode => do
    let part ← j.fields? ["name", "value", "span"]
    return (← field read part "name" identifier, ← field read part "value" expression,
      ← field read part "span" span)
  | returnNode => do
    let part ← j.fields? ["value", "span"]
    return (← field read part "value" expression, ← field read part "span" span)
  | exprNode => do
    let part ← j.fields? ["expr", "span"]
    return (← field read part "expr" expression, ← field read part "span" span)
  | block => asBlock read
  | expression => j.variant?.bind fun (tag, content) => asExpression read tag content
  | constant =>
    match j.elements? with
    | some [value, place] => do return (← read literal value, ← read span place)
    | _ => none
  | prefixNode => do
    let part ← j.fields? ["op", "operand", "span"]
    return (← field read part "op" prefixOp, ← field read part "operand" expression,
      ← field read part "span" span)
  | infixNode => do
    let part ← j.fields? ["op", "left", "right", "span"]
    return (← field read part "op" infixOp, ← field read part "left" expression,
      ← field read part "right" expression, ← field read part "span" span)
  | ifNode => do
    let part ← j.fields? ["condition", "consequence", "alternative", "span"]
    return (← field read part "condition" expression, ← field read part "consequence" block,
      ← field read part "alternative" alternative, ← field read part "span" span)
  | functionNode => do
    let part ← j.fields? ["params", "body", "span"]
    return (← field read part "params" parameters, ← field read part "body" block,
      ← field read part "span" span)
  | callNode => do
    let part ← j.fields? ["callee", "args", "span"]
    return (← field read part "callee" expression, ← field read part "args" arguments,
      ← field read part "span" span)
  | identifier => do
    let part ← j.fields? ["name", "span"]
    return ⟨← field read part "name" text, ← field read part "span" span⟩
  | parameters => row read identifier
  | arguments => row read expression
  | alternative => if j.isNull then some none else (asBlock read).map some
  | literal => j.variant?.bind fun (tag, content) => asLiteral read tag content
  | prefixOp => j.unitVariant?.bind PrefixOp.ofName?
  | infixOp => j.unitVariant?.bind InfixOp.ofName?
  | diagnostic => asDiagnostic read
  | hint => if j.isNull then some none else j.text?.map some
  | span => do
    let part ← j.fields? ["start", "end"]
    return ⟨← field read part "start" word64, ← field read part "end" word64⟩
  | word32 => (j.word? 32).map UInt32.ofNat
  | word64 => j.word? 64
  | integer => j.int64?
  | boolean => j.bool?
  | text => j.text?

end Assembling

/-- Reads a value of a kind. -/
def ofJson? (k : Kind) (j : Json) : Option k.Value :=
  assemble (fun kind (v : Inner j) => ofJson? kind v.1) k
termination_by sizeOf j
decreasing_by exact v.2

end Kind

end Monkey
