import Monkey.Span

/-!
# Syntax trees

Programs, statements, blocks and expressions, each with the span it was read from. Parentheses leave
no node behind: the tree alone says what belongs together.
-/

namespace Monkey

/-- A name, where it is bound or used. -/
structure Identifier where
  name : String
  span : Span
deriving DecidableEq, Repr, Inhabited

/-- A constant of the language. -/
inductive Literal where
  | integer (value : Int64)
  | boolean (value : Bool)
  | string (value : String)
deriving DecidableEq

/-- The operators in front of an operand. -/
inductive PrefixOp where
  | negate
  | not
deriving DecidableEq, Repr, Inhabited

/-- The operators between two operands. -/
inductive InfixOp where
  | add
  | sub
  | mul
  | div
  | lt
  | gt
  | eq
  | ne
deriving DecidableEq, Repr, Inhabited

mutual

/-- An expression. -/
inductive Expr where
  | literal (value : Literal) (span : Span)
  | identifier (name : Identifier)
  | unary (op : PrefixOp) (operand : Expr) (span : Span)
  | binary (op : InfixOp) (left right : Expr) (span : Span)
  | conditional (condition : Expr) (consequence : Block) (alternative : Option Block) (span : Span)
  | function (params : List Identifier) (body : Block) (span : Span)
  | call (callee : Expr) (args : List Expr) (span : Span)

/-- A statement. -/
inductive Stmt where
  | letStmt (name : Identifier) (value : Expr) (span : Span)
  | returnStmt (value : Expr) (span : Span)
  | exprStmt (value : Expr) (span : Span)

/-- The statements between two braces. -/
inductive Block where
  | mk (statements : List Stmt) (span : Span)

end

/-- A program is its statements in order. -/
structure Program where
  statements : List Stmt

instance : Inhabited Block := ⟨⟨[], .nowhere⟩⟩
instance : Inhabited Expr := ⟨.literal (.boolean false) .nowhere⟩
instance : Inhabited Stmt := ⟨.exprStmt default .nowhere⟩
instance : Inhabited Program := ⟨⟨[]⟩⟩

namespace PrefixOp

/-- The operator as it is written. -/
def text : PrefixOp → String
  | .negate => "-"
  | .not => "!"

end PrefixOp

namespace InfixOp

/-- The operator as it is written. -/
def text : InfixOp → String
  | .add => "+"
  | .sub => "-"
  | .mul => "*"
  | .div => "/"
  | .lt => "<"
  | .gt => ">"
  | .eq => "=="
  | .ne => "!="

end InfixOp

namespace Block

/-- The statements of a block. -/
def statements : Block → List Stmt
  | ⟨statements, _⟩ => statements

/-- Where the block stands, braces included. -/
def span : Block → Span
  | ⟨_, span⟩ => span

end Block

namespace Expr

/-- Where the expression stands. -/
def span : Expr → Span
  | .literal _ span => span
  | .identifier name => name.span
  | .unary _ _ span => span
  | .binary _ _ _ span => span
  | .conditional _ _ _ span => span
  | .function _ _ span => span
  | .call _ _ span => span

/-- Whether the expression is an operator with its operands. -/
def isOperation : Expr → Bool
  | .unary .. | .binary .. => true
  | _ => false

end Expr

namespace Stmt

/-- Where the statement stands, with the semicolon that ends it. -/
def span : Stmt → Span
  | .letStmt _ _ span => span
  | .returnStmt _ span => span
  | .exprStmt _ span => span

end Stmt

end Monkey
