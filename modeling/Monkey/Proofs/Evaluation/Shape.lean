import Monkey.Evaluation.Node
import Monkey.Proofs.Evaluation.Leaving
import Monkey.Proofs.Store.Shape

/-!
# Evaluation pays no heed to places

Nodes of one shape are evaluated alike, whatever the spans in them. Values of functions have code in
them, so machines that differ in the places of that code are taken for the same. Main statements:
`call_shape` and `Program.eval_shape`.
-/

namespace Monkey

variable {α β γ δ : Type}

/-- The machine with no code in it standing anywhere. -/
def Machine.shape (m : Machine) : Machine := ⟨m.store.shape, m.depth⟩

/-- The stop with no code in its value standing anywhere. -/
def Stop.shape : Stop → Stop
  | .returned v => .returned v.shape
  | s => s

namespace Eval

/-- How a computation ended, with no code in it standing anywhere. -/
def endShape (f : α → β) : Except Stop α → Except Stop β
  | .ok a => .ok (f a)
  | .error s => .error s.shape

/-- Where code stands nowhere the second computation does what the first one does. -/
def SameShape (f : α → β) (x : Eval α) (y : Eval β) : Prop :=
  ∀ m : Machine, y m.shape = (endShape f (x m).1, (x m).2.shape)

namespace SameShape

variable {f : α → β}

/-- Values are given alike. -/
lemma pure (a : α) : SameShape f (Pure.pure a) (Pure.pure (f a)) := fun _ => rfl

/-- Stops are given alike. -/
lemma throw (s : Stop) : SameShape f (MonadExcept.throw s) (MonadExcept.throw s.shape) :=
  fun _ => rfl

/-- A computation after a computation. -/
lemma bind {x : Eval α} {y : Eval β} {g : γ → δ} {next : α → Eval γ} {next' : β → Eval δ}
    (h : SameShape f x y) (further : ∀ a, SameShape g (next a) (next' (f a))) :
    SameShape g (x >>= next) (y >>= next') := by
  intro m
  rw [bind_apply, bind_apply, h m]
  cases x m with
  | mk r m' =>
    cases r with
    | ok a => exact further a m'
    | error s => rfl

/-- Operators give values without code. -/
lemma ofExcept {x : Except RuntimeError Value} (plain : ∀ v, x = .ok v → v.IsPlain) :
    SameShape Value.shape (Eval.ofExcept x) (Eval.ofExcept x) := by
  cases x with
  | error e => exact fun _ => rfl
  | ok v =>
    have same : v.shape = v := by
      have plain := plain v rfl
      cases v with
      | function | returned | error => cases plain
      | _ => rfl
    intro m
    show (_, _) = (Except.ok v.shape, _)
    rw [same]
    rfl

/-- Look-ups find the same but for the places. -/
lemma lookup (i : Nat) (name : String) :
    SameShape Value.shape (Eval.lookup i name) (Eval.lookup i name) := by
  intro m
  have same := m.store.get?_shape i name
  rw [lookup_apply, lookup_apply, Machine.shape, same]
  cases m.store.get? i name <;> rfl

/-- Values are bound alike. -/
lemma assign (i : Nat) (name : String) (v : Value) :
    SameShape id (Eval.assign i name v) (Eval.assign i name v.shape) := by
  intro m
  show (_, (⟨m.store.shape.set i name v.shape, m.depth⟩ : Machine)) = _
  rw [← Store.shape_set]
  rfl

/-- Functions are made alike. -/
lemma makeClosure (params : List Identifier) (body : Block) (i : Nat) :
    SameShape Value.shape (Eval.makeClosure params body i)
      (Eval.makeClosure (params.map Identifier.shape) body.shape i) := fun _ => rfl

end SameShape

end Eval

/-- The callers do the same where code stands nowhere. -/
def Caller.SameShape (c c' : Caller) : Prop :=
  ∀ v args, Eval.SameShape Value.shape (c v args) (c' v.shape (args.map Value.shape))

section Syntax

open Eval

variable {c c' : Caller}

mutual

/-- The evaluation of an expression, case by case. -/
lemma Expr.eval_shape (calls : Caller.SameShape c c') (i : Nat) :
    ∀ e : Expr, SameShape Value.shape (e.eval c i) (e.shape.eval c' i)
  | .literal value _ => by
    simp only [Expr.shape, Expr.eval]
    cases value <;> exact .pure _
  | .identifier x => by
    simp only [Expr.shape, Expr.eval]
    exact .lookup i x.name
  | .unary op operand _ => by
    simp only [Expr.shape, Expr.eval]
    refine .bind (operand.eval_shape calls i) fun v => ?_
    rw [Value.unnoticed_shape.prefixOp]
    exact .ofExcept fun _ => PrefixOp.isPlain_of_apply
  | .binary op left right _ => by
    simp only [Expr.shape, Expr.eval]
    refine .bind (left.eval_shape calls i) fun v => .bind (right.eval_shape calls i) fun w => ?_
    rw [Value.unnoticed_shape.infixOp]
    exact .ofExcept fun _ => InfixOp.isPlain_of_apply
  | .conditional condition consequence none _ => by
    simp only [Expr.shape, Expr.eval]
    refine .bind (condition.eval_shape calls i) fun v => ?_
    rw [Value.isTruthy_shape]
    split
    · exact consequence.eval_shape calls i
    · exact .pure Value.null
  | .conditional condition consequence (some alternative) _ => by
    simp only [Expr.shape, Expr.eval]
    refine .bind (condition.eval_shape calls i) fun v => ?_
    rw [Value.isTruthy_shape]
    split
    · exact consequence.eval_shape calls i
    · exact alternative.eval_shape calls i
  | .function params body _ => by
    simp only [Expr.shape, Expr.eval]
    exact .makeClosure params body i
  | .call callee args _ => by
    simp only [Expr.shape, Expr.eval]
    exact .bind (callee.eval_shape calls i) fun v =>
      .bind (Expr.evalList_shapes calls i args) fun values => calls v values

/-- Expressions of one shape are evaluated alike one behind the other. -/
lemma Expr.evalList_shapes (calls : Caller.SameShape c c') (i : Nat) :
    ∀ es : List Expr, SameShape (List.map Value.shape) (Expr.evalList c i es)
      (Expr.evalList c' i (Expr.shapes es))
  | [] => by
    simp only [Expr.shapes, Expr.evalList]
    exact .pure []
  | e :: others => by
    simp only [Expr.shapes, Expr.evalList]
    exact .bind (e.eval_shape calls i) fun v =>
      .bind (Expr.evalList_shapes calls i others) fun values => .pure (v :: values)

/-- Statements of one shape are executed alike. -/
lemma Stmt.eval_shape (calls : Caller.SameShape c c') (i : Nat) :
    ∀ s : Stmt, SameShape Value.shape (s.eval c i) (s.shape.eval c' i)
  | .letStmt x value _ => by
    simp only [Stmt.shape, Stmt.eval]
    exact .bind (value.eval_shape calls i) fun v =>
      .bind (.assign i x.name v) fun _ => .pure Value.null
  | .returnStmt value _ => by
    simp only [Stmt.shape, Stmt.eval]
    exact .bind (value.eval_shape calls i) fun v => .throw (.returned v)
  | .exprStmt value _ => by
    simp only [Stmt.shape, Stmt.eval]
    exact value.eval_shape calls i

/-- Statements of one shape are executed alike one behind the other. -/
lemma Stmt.evalList_shapes (calls : Caller.SameShape c c') (i : Nat) :
    ∀ (ss : List Stmt) (last : Value), SameShape Value.shape (Stmt.evalList c i last ss)
      (Stmt.evalList c' i last.shape (Stmt.shapes ss))
  | [], last => by
    simp only [Stmt.shapes, Stmt.evalList]
    exact .pure last
  | s :: others, last => by
    simp only [Stmt.shapes, Stmt.evalList]
    exact .bind (s.eval_shape calls i) fun v => Stmt.evalList_shapes calls i others v

/-- Blocks of one shape are executed alike. -/
lemma Block.eval_shape (calls : Caller.SameShape c c') (i : Nat) :
    ∀ k : Block, SameShape Value.shape (k.eval c i) (k.shape.eval c' i)
  | ⟨statements, _⟩ => by
    simp only [Block.shape, Block.eval]
    exact Stmt.evalList_shapes calls i statements .null

end

end Syntax

section Calls

open Eval

/-- Parameters are bound alike. -/
lemma Machine.bindParams_shape (s : Store) (i : Nat) (params : List Identifier)
    (args : List Value) :
    bindParams s.shape i (params.map Identifier.shape) (args.map Value.shape) =
      (bindParams s i params args).shape := by
  induction params generalizing s args with
  | nil => rfl
  | cons x params ih =>
    cases args with
    | nil => rfl
    | cons v args =>
      simp only [List.map_cons, bindParams, ← ih, Store.shape_set]
      rfl

/-- Calls begin alike. -/
lemma Machine.enter_shape (m : Machine) (f : Closure) (args : List Value) :
    m.shape.enter f.shape (args.map Value.shape) =
      ((m.enter f args).1, (m.enter f args).2.shape) := by
  have pushed := m.store.shape_push (some f.scope)
  simp only [enter_eq, shape, Closure.shape, Store.size_shape, ← pushed, bindParams_shape]

/-- Calls end alike. -/
lemma Machine.leave_shape (m : Machine) (i : Nat) (r : Except Stop Value) :
    m.shape.leave i (endShape Value.shape r) =
      (endShape Value.shape (m.leave i r).1, (m.leave i r).2.shape) := by
  have caught : Machine.caught (endShape Value.shape r) = endShape Value.shape (caught r) := by
    cases r with
    | ok v => rfl
    | error s => cases s <;> rfl
  have escapes : ∀ r, Machine.escapes m.store.shape i (endShape Value.shape r) =
      Machine.escapes m.store i r := by
    intro r
    cases r with
    | ok v => exact m.store.captures_shape v i
    | error s => rfl
  simp only [leave, shape, caught, escapes]
  split
  · rfl
  · rw [Store.shape_clear]

variable {c c' : Caller}

/-- Functions of one shape run alike. -/
lemma Closure.runBy_shape (calls : Caller.SameShape c c') (f : Closure) (args : List Value) :
    SameShape Value.shape (f.runBy Machine.leave c args)
      (f.shape.runBy Machine.leave c' (args.map Value.shape)) := by
  intro m
  rw [runBy_apply, runBy_apply, Machine.enter_shape]
  show Machine.leave (f.body.shape.eval c' m.shape.store.size _).2 m.shape.store.size _ = _
  have size : m.shape.store.size = m.store.size := m.store.size_shape
  rw [size, show f.shape.body = f.body.shape from rfl,
    f.body.eval_shape calls m.store.size (m.enter f args).2, Machine.leave_shape]

/-- Calls do the same if calls inside them do. -/
lemma callBy_shape {limit fuel : Nat}
    (inner : ∀ fuel', fuel = fuel' + 1 →
      Caller.SameShape (callBy Machine.leave limit fuel') (callBy Machine.leave limit fuel')) :
    Caller.SameShape (callBy Machine.leave limit fuel) (callBy Machine.leave limit fuel) := by
  intro v args m
  by_cases isFunction : ∃ f, v = .function f
  · obtain ⟨f, rfl⟩ := isFunction
    have params : f.shape.params.length = f.params.length := List.length_map _
    have count : (args.map Value.shape).length = args.length := List.length_map _
    by_cases arity : f.params.length = args.length
    · have arity' : f.shape.params.length = (args.map Value.shape).length :=
        params.trans (arity.trans count.symm)
      have depth : m.shape.depth = m.depth := rfl
      rw [callBy_function_apply _ limit fuel m arity, Value.shape,
        callBy_function_apply _ limit fuel m.shape arity', depth]
      split
      · rfl
      · cases fuel with
        | zero => rfl
        | succ fuel => exact f.runBy_shape (inner fuel rfl) args m
    · have arity' : f.shape.params.length ≠ (args.map Value.shape).length :=
        fun eq => arity (params.symm.trans (eq.trans count))
      rw [callBy_arity_apply _ limit fuel m arity, Value.shape,
        callBy_arity_apply _ limit fuel m.shape arity', params, count]
      rfl
  · have other : ∀ f, v ≠ .function f := fun f eq => isFunction ⟨f, eq⟩
    have other' : ∀ f, v.shape ≠ .function f := by
      intro f eq
      cases v with
      | function f => exact other f rfl
      | _ => cases eq
    rw [callBy_other_apply _ limit fuel args m other,
      callBy_other_apply _ limit fuel _ m.shape other', Value.type_shape]
    rfl

/-- Calls of functions of one shape do the same. -/
theorem call_shape (limit fuel : Nat) : Caller.SameShape (call limit fuel) (call limit fuel) := by
  rw [call_eq_callBy]
  induction fuel with
  | zero => exact callBy_shape fun _ none => nomatch none
  | succ fuel ih =>
    refine callBy_shape fun fuel' same => ?_
    cases same
    exact ih

end Calls

/-- Programs of one shape come to values of one shape. -/
theorem Program.eval_shape (b : Bounds) (p : Program) (i : Nat) (m : Machine) :
    p.shape.eval b i m.shape = ((p.eval b i m).1.map Value.shape, (p.eval b i m).2.shape) := by
  have same := Stmt.evalList_shapes (call_shape b.limit b.fuel) i p.statements .null m
  have null : Value.shape .null = .null := rfl
  rw [null] at same
  simp only [eval, shape, same]
  cases Stmt.evalList (call b.limit b.fuel) i .null p.statements m with
  | mk r m' =>
    cases r with
    | ok v => rfl
    | error s => cases s <;> rfl

end Monkey
