import Monkey.Proofs.Grammar.Ambiguous
import Monkey.Syntax.Parser
import Mathlib.Data.List.Infix

/-!
# Nesting of braces

Tokens close some braces that are open before them if they close all that they open besides, and
none else. With no brace open before them that is to say that their braces are balanced, as those
of a program are. Skipped tokens are counted in the same way, so that the count of open braces is
the true one as long as no closing brace is without an opening one. Main statements:
`Balanced.closes` and `IsProgram.closed`.
-/

namespace Monkey.Parser

/-- The kinds of brace. -/
def IsBrace (kind : TokenKind) : Prop := kind = .leftBrace ∨ kind = .rightBrace

instance : DecidablePred IsBrace := fun _ => instDecidableOr

/-- The tokens close so many braces that are open before them, all braces that they open, and no
others. -/
def Closes : Nat → List Token → Prop
  | depth, [] => depth = 0
  | depth, t :: ts => (t.kind = .rightBrace → 0 < depth) ∧ Closes (braceDepth depth t) ts

/-- As many braces are closed as are opened, and up to no token more than were opened. -/
structure Balanced (w : List Token) : Prop where
  upTo : ∀ v, v <+: w →
    v.countP (·.kind = .rightBrace) ≤ v.countP (·.kind = .leftBrace)
  whole : w.countP (·.kind = .rightBrace) = w.countP (·.kind = .leftBrace)

instance : DecidablePred Balanced := fun w =>
  decidable_of_iff
    ((∀ v ∈ w.inits, v.countP (·.kind = .rightBrace) ≤ v.countP (·.kind = .leftBrace)) ∧
      w.countP (·.kind = .rightBrace) = w.countP (·.kind = .leftBrace))
    ⟨fun h => ⟨fun v le => h.1 v ((List.mem_inits v w).2 le), h.2⟩,
      fun h => ⟨fun v mem => h.upTo v ((List.mem_inits v w).1 mem), h.whole⟩⟩

variable {depth : Nat} {t : Token} {v w ts : List Token}

/-- An opening brace counts up. -/
lemma braceDepth_leftBrace (kind : t.kind = .leftBrace) : braceDepth depth t = depth + 1 := by
  simp only [braceDepth, kind]

/-- A closing brace counts down. -/
lemma braceDepth_rightBrace (kind : t.kind = .rightBrace) : braceDepth depth t = depth - 1 := by
  simp only [braceDepth, kind]

/-- No other token counts. -/
lemma braceDepth_other (other : ¬ IsBrace t.kind) : braceDepth depth t = depth := by
  unfold braceDepth
  split
  · rename_i kind
    exact absurd (.inl kind) other
  · rename_i kind
    exact absurd (.inr kind) other
  · rfl

/-- An opening brace leaves one more brace to be closed. -/
lemma closes_leftBrace (kind : t.kind = .leftBrace) :
    Closes depth (t :: ts) ↔ Closes (depth + 1) ts := by
  rw [Closes, braceDepth_leftBrace kind, kind]
  exact and_iff_right nofun

/-- A closing brace leaves one brace less to be closed. -/
lemma closes_rightBrace (kind : t.kind = .rightBrace) :
    Closes (depth + 1) (t :: ts) ↔ Closes depth ts := by
  rw [Closes, braceDepth_rightBrace kind]
  exact and_iff_right fun _ => Nat.succ_pos depth

/-- Any other token leaves as many braces to be closed. -/
lemma closes_other (other : ¬ IsBrace t.kind) : Closes depth (t :: ts) ↔ Closes depth ts := by
  rw [Closes, braceDepth_other other]
  exact and_iff_right fun kind => absurd (.inr kind) other

/-- After some of the tokens, the others close the braces that are open then. -/
lemma Closes.foldl (h : Closes depth (v ++ w)) : Closes (v.foldl braceDepth depth) w := by
  induction v generalizing depth with
  | nil => exact h
  | cons t v ih => exact ih h.2

/-- Tokens after which no brace is open close all that were open. -/
lemma Closes.front (h : Closes depth (v ++ w)) (none : v.foldl braceDepth depth = 0) :
    Closes depth v := by
  induction v generalizing depth with
  | nil => exact none
  | cons t v ih => exact ⟨h.1, ih h.2 none⟩

/-- What counting braces says about the tokens from a place on where some are open. -/
lemma closes_of_counts
    (upTo : ∀ v, v <+: w →
      v.countP (·.kind = .rightBrace) ≤ depth + v.countP (·.kind = .leftBrace))
    (whole : w.countP (·.kind = .rightBrace) = depth + w.countP (·.kind = .leftBrace)) :
    Closes depth w := by
  induction w generalizing depth with
  | nil => exact whole.symm
  | cons t w ih =>
    have first := upTo [t] ((List.prefix_append [t] w))
    have upTo v (le : v <+: w) := upTo (t :: v) (List.cons_prefix_cons.2 ⟨rfl, le⟩)
    simp only [List.countP_cons, List.countP_nil] at first upTo whole
    by_cases left : t.kind = .leftBrace
    · simp only [left] at upTo whole
      refine (closes_leftBrace left).2 (ih (fun v le => ?_) ?_)
      · simpa [Nat.add_assoc, Nat.add_comm 1] using upTo v le
      · simpa [Nat.add_assoc, Nat.add_comm 1] using whole
    · by_cases right : t.kind = .rightBrace
      · cases depth with
        | zero => simp [right] at first
        | succ depth =>
          refine (closes_rightBrace right).2 (ih (fun v le => ?_) ?_)
          · have := upTo v le
            simp [right] at this
            omega
          · simp [right] at whole
            omega
      · refine (closes_other (not_or.2 ⟨left, right⟩)).2 (ih (fun v le => ?_) ?_)
        · simpa [left, right] using upTo v le
        · simpa [left, right] using whole

/-- Balanced tokens close what they open. -/
lemma Balanced.closes (h : Balanced w) : Closes 0 w := by
  refine closes_of_counts (fun v le => ?_) ?_
  · rw [Nat.zero_add]
    exact h.upTo v le
  · rw [Nat.zero_add]
    exact h.whole

/-- The tokens leave the braces that are open as they are. -/
def Closed (w : List Token) : Prop := ∀ depth ts, Closes depth (w ++ ts) ↔ Closes depth ts

/-- No tokens close nothing. -/
lemma closed_nil : Closed [] := fun _ _ => .rfl

/-- Closed tokens may stand one behind the other. -/
lemma Closed.append (h : Closed v) (h' : Closed w) : Closed (v ++ w) := by
  intro depth ts
  rw [List.append_assoc, h, h']

/-- A token that is no brace may stand in front. -/
lemma Closed.cons (h : Closed w) (other : ¬ IsBrace t.kind) : Closed (t :: w) := by
  intro depth ts
  rw [List.cons_append, closes_other other, h]

/-- Closed tokens may stand between braces. -/
lemma Closed.braces {opening closing : Token} (h : Closed w) (left : opening.kind = .leftBrace)
    (right : closing.kind = .rightBrace) : Closed (opening :: (w ++ [closing])) := by
  intro depth ts
  rw [List.cons_append, closes_leftBrace left, List.append_assoc, h, List.cons_append,
    closes_rightBrace right, List.nil_append]

/-- Closed tokens close what they open. -/
lemma Closed.closes (h : Closed w) : Closes 0 w := by
  have closes : Closes 0 (w ++ []) := (h 0 []).2 rfl
  rwa [List.append_nil] at closes

end Monkey.Parser

namespace Monkey.Grammar

open Monkey.Parser

/-- Parameters have no braces. -/
lemma Parameters.closed {w : List Token} {xs : List Identifier} (h : Parameters w xs) :
    Closed w := by
  induction h with
  | none => exact closed_nil
  | last kind => exact closed_nil.cons (by simp [kind, IsBrace])
  | more kind isComma _ ih =>
    exact (ih.cons (by simp [isComma, IsBrace])).cons (by simp [kind, IsBrace])

mutual

/-- The tokens of an expression are closed. -/
theorem IsExpr.closed {w : List Token} : IsExpr w → Closed w
  | .identifier kind | .integer kind _ | .string kind | .trueWord kind | .falseWord kind =>
    closed_nil.cons (by simp [kind, IsBrace])
  | .group opening inner closing =>
    (inner.closed.append (closed_nil.cons (by simp [closing, IsBrace]))).cons
      (by simp [opening, IsBrace])
  | .conditional kind opening condition closing consequence =>
    ((condition.closed.append (consequence.closed.cons (by simp [closing, IsBrace]))).cons
      (by simp [opening, IsBrace])).cons (by simp [kind, IsBrace])
  | .alternative kind opening condition closing consequence isElse alternative =>
    ((condition.closed.append ((consequence.closed.append
      (alternative.closed.cons (by simp [isElse, IsBrace]))).cons
      (by simp [closing, IsBrace]))).cons
      (by simp [opening, IsBrace])).cons (by simp [kind, IsBrace])
  | .function kind opening params closing body =>
    ((params.closed.append (body.closed.cons (by simp [closing, IsBrace]))).cons
      (by simp [opening, IsBrace])).cons (by simp [kind, IsBrace])
  | .unary found operand => by
    refine operand.closed.cons ?_
    rintro (kind | kind) <;>
    · rw [kind] at found
      cases found
  | .binary left found right => by
    refine left.closed.append (right.closed.cons ?_)
    rintro (kind | kind) <;>
    · rw [kind] at found
      cases found
  | .call callee opening args closing =>
    callee.closed.append ((args.closed.append
      (closed_nil.cons (by simp [closing, IsBrace]))).cons
      (by simp [opening, IsBrace]))

/-- The tokens of arguments are closed. -/
theorem IsArguments.closed {w : List Token} : IsArguments w → Closed w
  | .none => closed_nil
  | .last first => first.closed
  | .more first isComma others _ =>
    first.closed.append (others.closed.cons (by simp [isComma, IsBrace]))

/-- The tokens of a block are closed. -/
theorem IsBlock.closed {w : List Token} : IsBlock w → Closed w
  | .braces opening statements closing => statements.closed.braces opening closing

/-- The tokens of a statement are closed. -/
theorem IsClause.closed {w : List Token} : IsClause w → Closed w
  | .letStmt kind name equal value =>
    ((value.closed.cons (by simp [equal, IsBrace])).cons
      (by simp [name, IsBrace])).cons (by simp [kind, IsBrace])
  | .returnStmt kind value => value.closed.cons (by simp [kind, IsBrace])
  | .exprStmt value => value.closed

/-- The braces of a program are balanced. -/
theorem IsProgram.closed {w : List Token} : IsProgram w → Closed w
  | .none => closed_nil
  | .ended first kind others =>
    first.closed.append (others.closed.cons (by simp [kind, IsBrace]))
  | .bare first others => first.closed.append others.closed

end

end Monkey.Grammar
