import Monkey.Syntax
import Mathlib.Tactic.Lemma

/-!
# Names in use

The names that a tree uses are those that its evaluation may look up: the identifiers among its
expressions, also in the bodies of functions. A name that is only bound is not used by that.
-/

namespace Monkey

mutual

/-- The names that an expression uses. -/
def Expr.uses : Expr → List String
  | .literal _ _ => []
  | .identifier x => [x.name]
  | .unary _ operand _ => operand.uses
  | .binary _ left right _ => left.uses ++ right.uses
  | .conditional condition consequence none _ => condition.uses ++ consequence.uses
  | .conditional condition consequence (some alternative) _ =>
    condition.uses ++ (consequence.uses ++ alternative.uses)
  | .function _ body _ => body.uses
  | .call callee args _ => callee.uses ++ Expr.usesList args

/-- The names that expressions use. -/
def Expr.usesList : List Expr → List String
  | [] => []
  | e :: others => e.uses ++ Expr.usesList others

/-- The names that a statement uses. -/
def Stmt.uses : Stmt → List String
  | .letStmt _ value _ => value.uses
  | .returnStmt value _ => value.uses
  | .exprStmt value _ => value.uses

/-- The names that statements use. -/
def Stmt.usesList : List Stmt → List String
  | [] => []
  | s :: others => s.uses ++ Stmt.usesList others

/-- The names that a block uses. -/
def Block.uses : Block → List String
  | ⟨statements, _⟩ => Stmt.usesList statements

end

/-- The names that a program uses. -/
def Program.uses (p : Program) : List String := Stmt.usesList p.statements

/-- A block uses what its statements use. -/
lemma Block.uses_eq (k : Block) : k.uses = Stmt.usesList k.statements := by
  cases k
  rfl

/-- A conditional uses what its condition and its consequence use, whether or not there is an
alternative. -/
lemma Expr.forall_uses_conditional {names : String → Prop} {condition : Expr} {consequence : Block}
    {alternative : Option Block} {span : Span}
    (h : ∀ name ∈ (Expr.conditional condition consequence alternative span).uses, names name) :
    (∀ name ∈ condition.uses, names name) ∧ ∀ name ∈ consequence.uses, names name := by
  cases alternative with
  | none => exact List.forall_mem_append.1 h
  | some alternative => exact (List.forall_mem_append.1 h).imp_right fun h =>
      (List.forall_mem_append.1 h).1

end Monkey
