import Monkey.Proofs.Syntax.Spelling
import Mathlib.Data.List.Chain

/-!
# Statements that run into each other

The text of an expression statement does not say where it ends. If the text of the next statement
begins with a parenthesis, the two read as one statement, in which the second expression has become
the arguments of a call: `a` before `(b + c)(d)` reads as `a((b + c))(d)`. A tree is separated if
this happens nowhere in it. Main statement: `Program.reread_eq_shape_iff`, a program that is written
and read again stays what it was exactly if it is separated.
-/

namespace Monkey

/-- The statement is an expression. -/
def Stmt.isExpr : Stmt → Bool
  | .exprStmt .. => true
  | _ => false

/-- An expression without a semicolon stands before an expression whose text begins with a
parenthesis. -/
def Stmt.RunsInto (s s' : Stmt) : Prop :=
  s.isExpr ∧ s'.isExpr ∧ s'.render.toList.head? = some '('

/-- That no statement runs into the next one. -/
def Demand.separated : Demand where
  name _ := True
  literal _ := True
  sequence statements := statements.IsChain fun s s' => ¬ s.RunsInto s'

/-- The expression with the other one behind it, whose first parentheses now enclose the arguments
of a call. -/
def Expr.join (f : Expr) : Expr → Expr
  | .call callee args _ => .call (f.join callee) args .nowhere
  | e => .call f [e] .nowhere

/-- The statement before others, joined with the first of them if it runs into that. -/
def Stmt.before : Stmt → List Stmt → List Stmt
  | .exprStmt a span, .exprStmt b span' :: others =>
    if b.opensGroup then .exprStmt (a.join b) .nowhere :: others
    else .exprStmt a span :: .exprStmt b span' :: others
  | s, others => s :: others

mutual

/-- What the text of the expression reads as, without spans. -/
def Expr.reread : Expr → Expr
  | .literal value _ => .literal value .nowhere
  | .identifier x => .identifier x.shape
  | .unary op operand _ => .unary op operand.reread .nowhere
  | .binary op left right _ => .binary op left.reread right.reread .nowhere
  | .conditional condition consequence none _ =>
    .conditional condition.reread consequence.reread none .nowhere
  | .conditional condition consequence (some alternative) _ =>
    .conditional condition.reread consequence.reread (some alternative.reread) .nowhere
  | .function params body _ => .function (params.map Identifier.shape) body.reread .nowhere
  | .call callee args _ => .call callee.reread (Expr.rereadArgs args) .nowhere

/-- What the texts of arguments read as. -/
def Expr.rereadArgs : List Expr → List Expr
  | [] => []
  | e :: others => e.reread :: Expr.rereadArgs others

/-- What the text of the statement reads as. -/
def Stmt.reread : Stmt → Stmt
  | .letStmt x value _ => .letStmt x.shape value.reread .nowhere
  | .returnStmt value _ => .returnStmt value.reread .nowhere
  | .exprStmt value _ => .exprStmt value.reread .nowhere

/-- What the texts of statements read as, one after another. -/
def Stmt.rereadBody : List Stmt → List Stmt
  | [] => []
  | s :: others => s.reread.before (Stmt.rereadBody others)

/-- What the text of the block reads as. -/
def Block.reread : Block → Block
  | ⟨statements, _⟩ => ⟨Stmt.rereadBody statements, .nowhere⟩

end

/-- What the text of the program reads as, without spans. -/
def Program.reread (p : Program) : Program := ⟨Stmt.rereadBody p.statements⟩

namespace Expr

/-- What is joined begins as the first expression does. -/
@[simp] lemma opensGroup_join (f e : Expr) : (f.join e).opensGroup = f.opensGroup := by
  match e with
  | .call callee _ _ =>
    rw [join, opensGroup]
    exact opensGroup_join f callee
  | .literal .. | .identifier _ | .unary .. | .binary .. | .conditional .. | .function .. => rfl

/-- What is joined stands nowhere. -/
@[simp] lemma span_join (f e : Expr) : (f.join e).span = .nowhere := by
  cases e <;> rfl

/-- Joined one by one, or the second with the third first. -/
lemma join_join (a b e : Expr) : (a.join b).join e = a.join (b.join e) := by
  match e with
  | .call callee _ _ =>
    simp only [join]
    rw [join_join a b callee]
  | .literal .. | .identifier _ | .unary .. | .binary .. | .conditional .. | .function .. => rfl

/-- An expression that is read again stands nowhere. -/
@[simp] lemma span_reread (e : Expr) : e.reread.span = .nowhere := by
  cases e with
  | conditional _ _ alternative _ => cases alternative <;> rfl
  | _ => rfl

/-- An expression that is read again begins as before. -/
@[simp] lemma opensGroup_reread (e : Expr) : e.reread.opensGroup = e.opensGroup := by
  match e with
  | .call callee _ _ =>
    rw [reread, opensGroup]
    exact opensGroup_reread callee
  | .conditional _ _ none _ | .conditional _ _ (some _) _ => rfl
  | .literal .. | .identifier _ | .unary .. | .binary .. | .function .. => rfl

end Expr

/-- A block that is read again stands nowhere. -/
@[simp] lemma Block.span_reread (b : Block) : b.reread.span = .nowhere := by
  cases b
  rfl

namespace Stmt

/-- A statement that is read again is an expression if it was. -/
@[simp] lemma isExpr_reread (s : Stmt) : s.reread.isExpr = s.isExpr := by
  cases s <;> rfl

/-- Whether others could be joined with the statement. -/
def opensGroup : Stmt → Bool
  | .exprStmt value _ => value.opensGroup
  | _ => false

/-- A statement that is read again begins as before. -/
@[simp] lemma opensGroup_reread (s : Stmt) : s.reread.opensGroup = s.opensGroup := by
  cases s with
  | exprStmt value _ => exact value.opensGroup_reread
  | _ => rfl

/-- A statement alone, or joined with the next one, begins as it did. -/
lemma before_eq_cons (s : Stmt) (others : List Stmt) :
    ∃ s' others', s.before others = s' :: others' ∧ s'.opensGroup = s.opensGroup := by
  unfold before
  split
  · split
    · exact ⟨_, _, rfl, by simp [opensGroup]⟩
    · exact ⟨_, _, rfl, rfl⟩
  · exact ⟨_, _, rfl, rfl⟩

/-- A statement stays by itself, unless it is an expression before one to join it with. -/
lemma before_eq_cons_iff {s s' : Stmt} {others : List Stmt} :
    s.before (s' :: others) = s :: s' :: others ↔ ¬ (s.isExpr ∧ s'.opensGroup) := by
  match s, s' with
  | .exprStmt a _, .exprStmt b _ =>
    cases opens : b.opensGroup <;> simp [before, isExpr, opensGroup, opens]
  | .letStmt .., _ | .returnStmt .., _ => simp [before, isExpr]
  | .exprStmt .., .letStmt .. | .exprStmt .., .returnStmt .. => simp [before, opensGroup]

/-- Of three expressions in a row it does not matter which are joined first. -/
lemma before_before {a b : Expr} {others : List Stmt} (opens : b.opensGroup) :
    before (.exprStmt a .nowhere) (before (.exprStmt b .nowhere) others) =
      before (.exprStmt (a.join b) .nowhere) others := by
  match others with
  | [] | .letStmt .. :: _ | .returnStmt .. :: _ => simp [before, opens]
  | .exprStmt e _ :: more =>
    cases next : e.opensGroup with
    | false => simp [before, opens, next]
    | true => simp [before, opens, next, Expr.join_join]

/-- Nothing is lost but by joining. -/
lemma length_before_le (s : Stmt) (others : List Stmt) :
    (s.before others).length ≤ others.length + 1 := by
  unfold before
  split
  · split <;> simp
  · simp

/-- Statements that are read again are no more than before. -/
lemma length_rereadBody_le (ss : List Stmt) : (rereadBody ss).length ≤ ss.length := by
  induction ss with
  | nil => exact Nat.le_refl _
  | cons s others ih =>
    have le := length_before_le s.reread (rereadBody others)
    rw [rereadBody, List.length_cons]
    omega

/-- If nothing is lost, nothing was joined. -/
lemma eq_cons_of_length {s : Stmt} {others : List Stmt}
    (h : others.length < (s.before others).length) : s.before others = s :: others := by
  unfold before at h ⊢
  split at h
  · split at h
    · simp at h
    · rename_i apart
      simp only [if_neg apart]
  · rfl

/-- In these terms, a statement runs into another one. -/
lemma runsInto_iff {s s' : Stmt} (h : s'.Meets .writable) :
    s.RunsInto s' ↔ s.isExpr ∧ s'.opensGroup := by
  cases s' with
  | exprStmt value _ =>
    obtain ⟨c, first, _, opens⟩ := Expr.render_head (e := value) h
    simp [RunsInto, isExpr, opensGroup, render, first, opens]
  | _ => simp [RunsInto, isExpr, opensGroup]

/-- A statement stays by itself exactly if it does not run into the next one. -/
lemma rereadBody_cons_iff {s : Stmt} {others : List Stmt} (h : AllMeet .writable others) :
    rereadBody (s :: others) = s.reread :: rereadBody others ↔
      ∀ s' ∈ others.head?, ¬ s.RunsInto s' := by
  cases others with
  | nil => exact iff_of_true (by cases s <;> rfl) (by simp)
  | cons s' more =>
    obtain ⟨s'', others', eq, opens⟩ := before_eq_cons s'.reread (rereadBody more)
    rw [rereadBody, rereadBody, eq, before_eq_cons_iff, opens]
    simp [runsInto_iff h.1]

/-- Statements are separated exactly if the first does not run into the second, and so on. -/
lemma separated_cons_iff {s : Stmt} {others : List Stmt} :
    Demand.separated.sequence (s :: others) ↔
      (∀ s' ∈ others.head?, ¬ s.RunsInto s') ∧ Demand.separated.sequence others := by
  cases others with
  | nil => simp [Demand.separated]
  | cons s' more => simp [Demand.separated, List.isChain_cons_cons]

/-- Each statement has a shape. -/
lemma length_shapes (ss : List Stmt) : (shapes ss).length = ss.length := by
  induction ss with
  | nil => rfl
  | cons _ _ ih => exact congrArg (· + 1) ih

end Stmt

mutual

/-- What is read again is what it was, if no statement runs into the next one. -/
lemma Expr.reread_eq_shape_iff : ∀ {e : Expr}, e.Meets .writable →
    (e.reread = e.shape ↔ e.Meets .separated)
  | .literal _ _, _ => iff_of_true rfl trivial
  | .identifier _, _ => iff_of_true rfl trivial
  | .unary _ operand _, h => by
    simp [Expr.reread, Expr.shape, Expr.Meets, Expr.reread_eq_shape_iff (e := operand) h]
  | .binary _ left right _, h => by
    simp [Expr.reread, Expr.shape, Expr.Meets, Expr.reread_eq_shape_iff h.1,
      Expr.reread_eq_shape_iff h.2]
  | .conditional _ _ none _, h => by
    simp [Expr.reread, Expr.shape, Expr.Meets, Expr.reread_eq_shape_iff h.1,
      Block.reread_eq_shape_iff h.2]
  | .conditional _ _ (some _) _, h => by
    simp [Expr.reread, Expr.shape, Expr.Meets, Expr.reread_eq_shape_iff h.1,
      Block.reread_eq_shape_iff h.2.1, Block.reread_eq_shape_iff h.2.2]
  | .function _ _ _, h => by
    simp [Expr.reread, Expr.shape, Expr.Meets, Demand.separated, Block.reread_eq_shape_iff h.2]
  | .call _ _ _, h => by
    simp [Expr.reread, Expr.shape, Expr.Meets, Expr.reread_eq_shape_iff h.1,
      Expr.rereadArgs_eq_shapes_iff h.2]

/-- Arguments are read as themselves exactly if nothing in them runs into anything. -/
lemma Expr.rereadArgs_eq_shapes_iff : ∀ {es : List Expr}, Expr.AllMeet .writable es →
    (Expr.rereadArgs es = Expr.shapes es ↔ Expr.AllMeet .separated es)
  | [], _ => iff_of_true rfl trivial
  | _ :: _, h => by
    simp [Expr.rereadArgs, Expr.shapes, Expr.AllMeet, Expr.reread_eq_shape_iff h.1,
      Expr.rereadArgs_eq_shapes_iff h.2]

/-- A statement is read as itself exactly if nothing in it runs into anything. -/
lemma Stmt.reread_eq_shape_iff : ∀ {s : Stmt}, s.Meets .writable →
    (s.reread = s.shape ↔ s.Meets .separated)
  | .letStmt _ value _, h => by
    simp [Stmt.reread, Stmt.shape, Stmt.Meets, Demand.separated, Expr.reread_eq_shape_iff h.2]
  | .returnStmt value _, h => by
    simp [Stmt.reread, Stmt.shape, Stmt.Meets, Expr.reread_eq_shape_iff (e := value) h]
  | .exprStmt value _, h => by
    simp [Stmt.reread, Stmt.shape, Stmt.Meets, Expr.reread_eq_shape_iff (e := value) h]

/-- Statements are read as themselves exactly if none runs into the next, nor anything in them. -/
lemma Stmt.rereadBody_eq_shapes_iff : ∀ {ss : List Stmt}, Stmt.AllMeet .writable ss →
    (Stmt.rereadBody ss = Stmt.shapes ss ↔
      Demand.separated.sequence ss ∧ Stmt.AllMeet .separated ss)
  | [], _ => iff_of_true rfl ⟨.nil, trivial⟩
  | s :: others, h => by
    have first := Stmt.reread_eq_shape_iff h.1
    have rest := Stmt.rereadBody_eq_shapes_iff h.2
    constructor
    · intro same
      have alone : Stmt.rereadBody (s :: others) = s.reread :: Stmt.rereadBody others := by
        refine Stmt.eq_cons_of_length ?_
        rw [← Stmt.rereadBody, same, Stmt.length_shapes]
        exact Nat.lt_succ_of_le (Stmt.length_rereadBody_le others)
      rw [alone, Stmt.shapes, List.cons.injEq] at same
      obtain ⟨sequence, others⟩ := rest.1 same.2
      have apart := (Stmt.rereadBody_cons_iff h.2).1 alone
      exact ⟨Stmt.separated_cons_iff.2 ⟨apart, sequence⟩, first.1 same.1, others⟩
    · rintro ⟨sequence, meets, others⟩
      obtain ⟨apart, sequence⟩ := Stmt.separated_cons_iff.1 sequence
      rw [(Stmt.rereadBody_cons_iff h.2).2 apart, first.2 meets, rest.2 ⟨sequence, others⟩,
        Stmt.shapes]

/-- A block is read as itself exactly if nothing in it runs into anything. -/
lemma Block.reread_eq_shape_iff : ∀ {b : Block}, b.Meets .writable →
    (b.reread = b.shape ↔ b.Meets .separated)
  | ⟨_, _⟩, h => by
    simp [Block.reread, Block.shape, Block.Meets, Stmt.rereadBody_eq_shapes_iff h.2]

end

/-- A program is read again as it was exactly if no statement of it, or of a block in it, runs into
the next one. -/
theorem Program.reread_eq_shape_iff {p : Program} (h : p.Meets .writable) :
    p.reread = p.shape ↔ p.Meets .separated := by
  rw [Program.reread, Program.shape, Program.mk.injEq]
  exact Stmt.rereadBody_eq_shapes_iff h.2

end Monkey
