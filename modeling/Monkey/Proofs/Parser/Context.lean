import Monkey.Proofs.Grammar.Stratified
import Monkey.Syntax.Parser

/-!
# Contexts

An expression is read in the context of a precedence: the tokens behind it belong to it as long as
they bind more tightly. Behind an operator between two operands the expressions of the next tighter
level are read, behind one in front of an operand those of its own level.
-/

namespace Monkey.Parser

open Grammar

/-- How tightly a token binds that stands behind an expression. -/
def binding (kind : TokenKind) : Precedence :=
  match InfixOp.ofKind? kind with
  | some op => op.precedence
  | none => if kind = .leftParen then .call else .lowest

/-- The level of the expressions that are read in a context. -/
def within : Precedence → Precedence
  | .lowest => .lowest
  | .unary | .call => .unary
  | p => p.tighter

/-- No context is tighter than a prefix operator's. -/
lemma within_le_unary (p : Precedence) : (within p).rank ≤ Precedence.unary.rank := by
  cases p <;> decide

/-- An operator that binds tighter than the context may stand in it. -/
lemma within_le_of_lt {p : Precedence} {op : InfixOp} (h : p < op.precedence) :
    (within p).rank ≤ op.precedence.rank := by
  revert h
  cases p <;> cases op <;> decide

/-- In the context of an operator stands what binds tighter. -/
lemma within_precedence (op : InfixOp) : within op.precedence = op.precedence.tighter := by
  cases op <;> rfl

/-- What does not bind at all stands apart. -/
lemma not_lowest_lt_iff {k : TokenKind} : ¬ Precedence.lowest < binding k ↔ Apart k := by
  cases k <;> decide

/-- An infix operator binds as it does. -/
lemma binding_of_found {k : TokenKind} {op : InfixOp} (found : InfixOp.ofKind? k = some op) :
    binding k = op.precedence := by
  simp only [binding, found]

/-- Nothing binds tighter than a call. -/
lemma not_call_lt (k : TokenKind) : ¬ Precedence.call < binding k := by
  cases k <;> decide

/-- A token that binds more tightly than some context is an operator or begins arguments. -/
lemma of_lt_binding {p : Precedence} {k : TokenKind} (h : p < binding k) :
    (∃ op, InfixOp.ofKind? k = some op ∧ binding k = op.precedence) ∨
      k = .leftParen ∧ binding k = .call := by
  unfold binding at h ⊢
  cases found : InfixOp.ofKind? k with
  | some op => exact .inl ⟨op, rfl, rfl⟩
  | none =>
    rw [found] at h
    by_cases kind : k = .leftParen
    · exact .inr ⟨kind, if_pos kind⟩
    · simp only [if_neg kind] at h
      exact absurd h (Nat.not_lt_zero _)

/-- Every other precedence is looser than a call. -/
lemma lt_call {p : Precedence} (h : p ≠ .call) : p < .call := by
  cases p with
  | call => exact absurd rfl h
  | _ => decide

/-- An operator that may stand in a context binds tighter than it. -/
lemma lt_of_within_le {p : Precedence} {op : InfixOp}
    (le : (within p).rank ≤ op.precedence.rank) : p < op.precedence := by
  revert le
  cases p <;> cases op <;> decide

end Monkey.Parser
