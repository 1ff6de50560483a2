import Monkey.Proofs.Syntax.Shape

/-!
# Demands on trees

What is asked of every name, every constant and every sequence of statements of a tree, down to the
innermost block. A tree meets a demand or not, whatever the spans of its nodes.
-/

namespace Monkey

/-- What is asked of the parts of a tree. -/
structure Demand where
  name : String → Prop
  literal : Literal → Prop
  /-- What is asked of the statements of a program and of each block. -/
  sequence : List Stmt → Prop

mutual

/-- All parts of the expression are as demanded. -/
def Expr.Meets (d : Demand) : Expr → Prop
  | .literal value _ => d.literal value
  | .identifier x => d.name x.name
  | .unary _ operand _ => operand.Meets d
  | .binary _ left right _ => left.Meets d ∧ right.Meets d
  | .conditional condition consequence none _ => condition.Meets d ∧ consequence.Meets d
  | .conditional condition consequence (some alternative) _ =>
    condition.Meets d ∧ consequence.Meets d ∧ alternative.Meets d
  | .function params body _ => (∀ x ∈ params, d.name x.name) ∧ body.Meets d
  | .call callee args _ => callee.Meets d ∧ Expr.AllMeet d args

/-- All parts of the expressions are as demanded. -/
def Expr.AllMeet (d : Demand) : List Expr → Prop
  | [] => True
  | e :: others => e.Meets d ∧ Expr.AllMeet d others

/-- All parts of the statement are as demanded. -/
def Stmt.Meets (d : Demand) : Stmt → Prop
  | .letStmt x value _ => d.name x.name ∧ value.Meets d
  | .returnStmt value _ => value.Meets d
  | .exprStmt value _ => value.Meets d

/-- All parts of the statements are as demanded, each statement for itself. -/
def Stmt.AllMeet (d : Demand) : List Stmt → Prop
  | [] => True
  | s :: others => s.Meets d ∧ Stmt.AllMeet d others

/-- The statements of the block are as demanded, one by one and as a sequence. -/
def Block.Meets (d : Demand) : Block → Prop
  | ⟨statements, _⟩ => d.sequence statements ∧ Stmt.AllMeet d statements

end

/-- The statements of the program are as demanded, one by one and as a sequence. -/
def Program.Meets (d : Demand) (p : Program) : Prop :=
  d.sequence p.statements ∧ Stmt.AllMeet d p.statements

end Monkey
