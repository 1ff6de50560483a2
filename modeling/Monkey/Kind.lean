import Monkey.Diagnostic
import Monkey.Json
import Monkey.Syntax
import Monkey.Text.Numeral

/-!
# What is written as JSON

Programs and diagnostics are written as JSON and read from it, and so is every kind of value that
they are made of. The layout of a kind says what its values are made of, as it is declared with the
types: a node has fields under their names, a choice stands under the name of its variant, and so
on. How a layout is written and read is up to the library for JSON.
-/

namespace Monkey

/-- A program together with the version of its layout. -/
structure Document where
  version : UInt32
  program : Program

/-- The version of the layout that programs are written in. -/
def Document.currentVersion : UInt32 := 1

/-- The document for a program, in the current version. -/
def Document.ofProgram (program : Program) : Document := ⟨Document.currentVersion, program⟩

/-- The name of an operator in front of an operand. -/
def PrefixOp.encodedName : PrefixOp → String
  | .negate => "Negate"
  | .not => "Not"

/-- The name of an operator between two operands. -/
def InfixOp.encodedName : InfixOp → String
  | .add => "Add"
  | .sub => "Sub"
  | .mul => "Mul"
  | .div => "Div"
  | .lt => "Lt"
  | .gt => "Gt"
  | .eq => "Eq"
  | .ne => "Ne"

/-- The kinds of values that are written as JSON. What stands under the name of a variant is of a
kind of its own. -/
inductive Kind where
  | document | statements | statement | letNode | returnNode | exprNode | block
  | expression | constant | prefixNode | infixNode | ifNode | functionNode | callNode
  | identifier | parameters | arguments | alternative | literal | prefixOp | infixOp
  | diagnostic | hint
  | span | word32 | word64 | integer | boolean | text
deriving DecidableEq

namespace Kind

/-- The values of a kind. -/
@[reducible] def Value : Kind → Type
  | document => Document
  | statements => List Stmt
  | statement => Stmt
  | letNode => Identifier × Expr × Span
  | returnNode => Expr × Span
  | exprNode => Expr × Span
  | block => Block
  | expression => Expr
  | constant => Literal × Span
  | prefixNode => PrefixOp × Expr × Span
  | infixNode => InfixOp × Expr × Expr × Span
  | ifNode => Expr × Block × Option Block × Span
  | functionNode => List Identifier × Block × Span
  | callNode => Expr × List Expr × Span
  | identifier => Identifier
  | parameters => List Identifier
  | arguments => List Expr
  | alternative => Option Block
  | literal => Literal
  | prefixOp => PrefixOp
  | infixOp => InfixOp
  | diagnostic => Diagnostic
  | hint => Option String
  | span => Span
  | word32 => UInt32
  | word64 => Nat
  | integer => Int64
  | boolean => Bool
  | text => String

/-- The value that a field has if it is missing, where a field of the kind may be missing. -/
def absent? : (k : Kind) → Option k.Value
  | alternative => some (none : Option Block)
  | hint => some (none : Option String)
  | _ => none

end Kind

/-- A field of a node: its name, and what stands in it. -/
structure Field (α : Type) where
  name : String
  kind : Kind
  get : α → kind.Value
  /-- Whether nothing is written for the field. -/
  skips : α → Bool

/-- A field that is always written. -/
def Field.always {α : Type} (name : String) (kind : Kind) (get : α → kind.Value) : Field α :=
  ⟨name, kind, get, fun _ => false⟩

/-- A variant of a choice: its name, and what stands under it for the values of this variant. -/
structure Variant (α : Type) where
  name : String
  kind : Kind
  content? : α → Option kind.Value

/-- What the values of a kind are made of. -/
inductive Layout (α : Type) where
  /-- Fields under their names. Where the node is `whole` they may also stand alone in their
  order; it is not if it takes in the fields of another one. -/
  | node (whole : Bool) (fields : List (Field α))
  /-- One of these variants with its content. -/
  | choice (variants : List (Variant α))
  /-- One of several variants that have no content, by its name. -/
  | unit (name : α → String)
  /-- The fields alone, in their order. -/
  | tuple (fields : List (Field α))
  /-- Any number of values of a kind. -/
  | row (kind : Kind) (items : α → List kind.Value)
  /-- A value of a kind, or nothing. -/
  | optional (kind : Kind) (value? : α → Option kind.Value)
  /-- A number, a text or a truth value, if it is in range. -/
  | leaf (json : α → Json) (inRange : α → Prop)

namespace Stmt

/-- The parts of a statement that binds a name. -/
def letParts? : Stmt → Option (Identifier × Expr × Span)
  | letStmt x value span => some (x, value, span)
  | _ => none

/-- The parts of a statement that returns a value. -/
def returnParts? : Stmt → Option (Expr × Span)
  | returnStmt value span => some (value, span)
  | _ => none

/-- The parts of a statement that is an expression. -/
def exprParts? : Stmt → Option (Expr × Span)
  | exprStmt value span => some (value, span)
  | _ => none

end Stmt

namespace Expr

/-- The parts of a constant. -/
def literalParts? : Expr → Option (Literal × Span)
  | literal value span => some (value, span)
  | _ => none

/-- The name that an expression consists of. -/
def identifier? : Expr → Option Identifier
  | identifier x => some x
  | _ => none

/-- The parts of an operator with its operand. -/
def unaryParts? : Expr → Option (PrefixOp × Expr × Span)
  | unary op operand span => some (op, operand, span)
  | _ => none

/-- The parts of an operator with its operands. -/
def binaryParts? : Expr → Option (InfixOp × Expr × Expr × Span)
  | binary op left right span => some (op, left, right, span)
  | _ => none

/-- The parts of a conditional. -/
def conditionalParts? : Expr → Option (Expr × Block × Option Block × Span)
  | conditional condition consequence alternative span =>
    some (condition, consequence, alternative, span)
  | _ => none

/-- The parts of a function. -/
def functionParts? : Expr → Option (List Identifier × Block × Span)
  | function params body span => some (params, body, span)
  | _ => none

/-- The parts of a call. -/
def callParts? : Expr → Option (Expr × List Expr × Span)
  | call callee args span => some (callee, args, span)
  | _ => none

end Expr

namespace Literal

/-- The number that a constant is. -/
def integer? : Literal → Option Int64
  | integer value => some value
  | _ => none

/-- The truth value that a constant is. -/
def boolean? : Literal → Option Bool
  | boolean value => some value
  | _ => none

/-- The text that a constant is. -/
def string? : Literal → Option String
  | string value => some value
  | _ => none

end Literal

open Monkey.Field (always)

/-- What the values of a kind are made of. -/
def Kind.layout : (k : Kind) → Layout k.Value
  | document => .node false [always "ast_version" word32 Document.version,
      always "statements" statements fun d : Document => d.program.statements]
  | statements => .row statement fun ss : List Stmt => ss
  | statement => .choice [⟨"Let", letNode, Stmt.letParts?⟩,
      ⟨"Return", returnNode, Stmt.returnParts?⟩, ⟨"Expr", exprNode, Stmt.exprParts?⟩]
  | letNode => .node true [always "name" identifier fun (x, _, _) => x,
      always "value" expression fun (_, value, _) => value,
      always "span" span fun (_, _, place) => place]
  | returnNode => .node true [always "value" expression fun (value, _) => value,
      always "span" span fun (_, place) => place]
  | exprNode => .node true [always "expr" expression fun (value, _) => value,
      always "span" span fun (_, place) => place]
  | block => .node true [always "statements" statements Block.statements,
      always "span" span Block.span]
  | expression => .choice [⟨"Literal", constant, Expr.literalParts?⟩,
      ⟨"Identifier", identifier, Expr.identifier?⟩, ⟨"Prefix", prefixNode, Expr.unaryParts?⟩,
      ⟨"Infix", infixNode, Expr.binaryParts?⟩, ⟨"If", ifNode, Expr.conditionalParts?⟩,
      ⟨"Function", functionNode, Expr.functionParts?⟩, ⟨"Call", callNode, Expr.callParts?⟩]
  | constant => .tuple [always "value" literal fun (value, _) => value,
      always "span" span fun (_, place) => place]
  | prefixNode => .node true [always "op" prefixOp fun (op, _, _) => op,
      always "operand" expression fun (_, operand, _) => operand,
      always "span" span fun (_, _, place) => place]
  | infixNode => .node true [always "op" infixOp fun (op, _, _, _) => op,
      always "left" expression fun (_, left, _, _) => left,
      always "right" expression fun (_, _, right, _) => right,
      always "span" span fun (_, _, _, place) => place]
  | ifNode => .node true [always "condition" expression fun (condition, _, _, _) => condition,
      always "consequence" block fun (_, consequence, _, _) => consequence,
      always "alternative" alternative fun (_, _, other, _) => other,
      always "span" span fun (_, _, _, place) => place]
  | functionNode => .node true [always "params" parameters fun (params, _, _) => params,
      always "body" block fun (_, body, _) => body,
      always "span" span fun (_, _, place) => place]
  | callNode => .node true [always "callee" expression fun (callee, _, _) => callee,
      always "args" arguments fun (_, args, _) => args,
      always "span" span fun (_, _, place) => place]
  | identifier => .node true [always "name" text Identifier.name,
      always "span" span Identifier.span]
  | parameters => .row identifier fun xs : List Identifier => xs
  | arguments => .row expression fun es : List Expr => es
  | alternative => .optional block fun b : Option Block => b
  | literal => .choice [⟨"Integer", integer, Literal.integer?⟩, ⟨"Bool", boolean, Literal.boolean?⟩,
      ⟨"String", text, Literal.string?⟩]
  | prefixOp => .unit PrefixOp.encodedName
  | infixOp => .unit InfixOp.encodedName
  | diagnostic => .node true [
      always "diag_version" word32 Diagnostic.version,
      always "code" text Diagnostic.code, always "message" text Diagnostic.message,
      always "span" span Diagnostic.span, always "file" text Diagnostic.file,
      always "line" word64 Diagnostic.line, always "column" word64 Diagnostic.column,
      always "length" word64 Diagnostic.length, always "snippet" text Diagnostic.snippet,
      always "label" text Diagnostic.label, ⟨"help", hint, Diagnostic.help, fun d => d.help.isNone⟩]
  | hint => .optional text fun help : Option String => help
  | span => .node true [always "start" word64 Span.start, always "end" word64 Span.stop]
  | word32 => .leaf (fun n : UInt32 => .ofNat n.toNat) fun _ => True
  | word64 => .leaf Json.ofNat fun n : Nat => n < Numeral.words 64
  | integer => .leaf (fun n : Int64 => .integer n.toInt) fun _ => True
  | boolean => .leaf Json.bool fun _ => True
  | text => .leaf Json.string fun _ => True

end Monkey
