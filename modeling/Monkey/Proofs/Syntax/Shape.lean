import Monkey.Syntax.Render
import Monkey.Syntax.Source
import Mathlib.Tactic.Lemma

/-!
# Shapes

The shape of a tree is the tree with all its nodes standing nowhere: two trees have the same shape
if they are equal when spans are ignored. Tokens have shapes likewise. Main statement:
`Program.render_eq_of_shape_eq`, trees of the same shape are written in the same way.
-/

namespace Monkey

/-- The token without its place. -/
def Token.shape (t : Token) : Token := { t with span := .nowhere }

/-- The name without its place. -/
def Identifier.shape (x : Identifier) : Identifier := { x with span := .nowhere }

mutual

/-- The expression with no node standing anywhere. -/
def Expr.shape : Expr → Expr
  | .literal value _ => .literal value .nowhere
  | .identifier x => .identifier x.shape
  | .unary op operand _ => .unary op operand.shape .nowhere
  | .binary op left right _ => .binary op left.shape right.shape .nowhere
  | .conditional condition consequence none _ =>
    .conditional condition.shape consequence.shape none .nowhere
  | .conditional condition consequence (some alternative) _ =>
    .conditional condition.shape consequence.shape (some alternative.shape) .nowhere
  | .function params body _ => .function (params.map Identifier.shape) body.shape .nowhere
  | .call callee args _ => .call callee.shape (Expr.shapes args) .nowhere

/-- The shapes of expressions. -/
def Expr.shapes : List Expr → List Expr
  | [] => []
  | e :: others => e.shape :: Expr.shapes others

/-- The statement with no node standing anywhere. -/
def Stmt.shape : Stmt → Stmt
  | .letStmt x value _ => .letStmt x.shape value.shape .nowhere
  | .returnStmt value _ => .returnStmt value.shape .nowhere
  | .exprStmt value _ => .exprStmt value.shape .nowhere

/-- The shapes of statements. -/
def Stmt.shapes : List Stmt → List Stmt
  | [] => []
  | s :: others => s.shape :: Stmt.shapes others

/-- The block with no node standing anywhere. -/
def Block.shape : Block → Block
  | ⟨statements, _⟩ => ⟨Stmt.shapes statements, .nowhere⟩

end

/-- The program with no node standing anywhere. -/
def Program.shape (p : Program) : Program := ⟨Stmt.shapes p.statements⟩

/-- The shape of a token is of its kind. -/
@[simp] lemma Token.shape_kind (t : Token) : t.shape.kind = t.kind := rfl

/-- The shape of a token has its text. -/
@[simp] lemma Token.shape_lexeme (t : Token) : t.shape.lexeme = t.lexeme := rfl

/-- The shape of a token stands nowhere. -/
@[simp] lemma Token.shape_span (t : Token) : t.shape.span = .nowhere := rfl

/-- The shape of an expression stands nowhere. -/
@[simp] lemma Expr.shape_span (e : Expr) : e.shape.span = .nowhere := by
  cases e with
  | conditional _ _ alternative _ => cases alternative <;> rfl
  | _ => rfl

/-- The shape of a block stands nowhere. -/
@[simp] lemma Block.shape_span (b : Block) : b.shape.span = .nowhere := by
  cases b
  rfl

/-- The shape of an expression is an operation if it is. -/
@[simp] lemma Expr.shape_isOperation (e : Expr) : e.shape.isOperation = e.isOperation := by
  cases e with
  | conditional _ _ alternative _ => cases alternative <;> rfl
  | _ => rfl

/-- Parameters are written by their names. -/
lemma Identifier.renderParams_shape (params : List Identifier) :
    renderParams (params.map shape) = renderParams params := by
  simp only [renderParams, List.map_map]
  rfl

/-- Statements have shapes one by one. -/
lemma Stmt.shapes_eq_map (statements : List Stmt) :
    Stmt.shapes statements = statements.map Stmt.shape := by
  induction statements with
  | nil => rfl
  | cons s others ih => simp [Stmt.shapes, ih]

mutual

/-- A place leaves no trace in the text. -/
lemma Expr.render_shape : ∀ e : Expr, e.shape.render = e.render
  | .literal _ _ => rfl
  | .identifier _ => rfl
  | .unary _ operand _ => by simp only [Expr.shape, Expr.render, operand.render_shape]
  | .binary _ left right _ => by
    simp only [Expr.shape, Expr.render, left.render_shape, right.render_shape]
  | .conditional condition consequence none _ => by
    simp only [Expr.shape, Expr.render, Expr.shape_isOperation, condition.render_shape,
      consequence.render_shape]
  | .conditional condition consequence (some alternative) _ => by
    simp only [Expr.shape, Expr.render, Expr.shape_isOperation, condition.render_shape,
      consequence.render_shape, alternative.render_shape]
  | .function params body _ => by
    simp only [Expr.shape, Expr.render, Identifier.renderParams_shape, body.render_shape]
  | .call callee args _ => by
    simp only [Expr.shape, Expr.render, callee.render_shape, Expr.renderArgs_shapes args]

/-- Arguments are written without regard to places. -/
lemma Expr.renderArgs_shapes : ∀ es : List Expr,
    Expr.renderArgs (Expr.shapes es) = Expr.renderArgs es
  | [] => rfl
  | e :: others => by
    simp only [Expr.shapes, Expr.renderArgs, e.render_shape, Expr.renderMoreArgs_shapes others]

/-- Further arguments are written without regard to places. -/
lemma Expr.renderMoreArgs_shapes : ∀ es : List Expr,
    Expr.renderMoreArgs (Expr.shapes es) = Expr.renderMoreArgs es
  | [] => rfl
  | e :: others => by
    simp only [Expr.shapes, Expr.renderMoreArgs, e.render_shape, Expr.renderMoreArgs_shapes others]

/-- A statement is written without regard to places. -/
lemma Stmt.render_shape : ∀ s : Stmt, s.shape.render = s.render
  | .letStmt _ value _ => by
    simp only [Stmt.shape, Stmt.render, value.render_shape]
    rfl
  | .returnStmt value _ => by simp only [Stmt.shape, Stmt.render, value.render_shape]
  | .exprStmt value _ => by simp only [Stmt.shape, Stmt.render, value.render_shape]

/-- The statements of a body are written without regard to places. -/
lemma Stmt.renderBody_shapes : ∀ ss : List Stmt,
    Stmt.renderBody (Stmt.shapes ss) = Stmt.renderBody ss
  | [] => rfl
  | s :: others => by
    simp only [Stmt.shapes, Stmt.renderBody, s.render_shape, Stmt.renderBody_shapes others]

/-- A block is written without regard to places. -/
lemma Block.render_shape : ∀ b : Block, b.shape.render = b.render
  | ⟨statements, _⟩ => by simp only [Block.shape, Block.render, Stmt.renderBody_shapes statements]

end

/-- Programs of the same shape are written in the same way. -/
theorem Program.render_eq_of_shape_eq {p q : Program} (h : p.shape = q.shape) :
    p.render = q.render := by
  have unplaced (p : Program) : p.shape.render = p.render := by
    simp only [render, shape, Stmt.shapes_eq_map, List.map_map]
    exact congrArg _ (List.map_congr_left fun s _ => s.render_shape)
  rw [← unplaced p, h, unplaced q]

end Monkey
