import Monkey.Evaluation
import Monkey.Proofs.Syntax.Uses
import Mathlib.Data.List.Forall2

/-!
# Couplings of evaluations

Two evaluations of one syntax tree, side by side. A coupling says what the two have in common at a
moment (a world): which machines belong together, which scopes and which values. It also says which
worlds may follow a world. If the primitive steps of evaluation and the two ways to call functions
keep to the coupling, then so does the evaluation of every tree: that is `Expr.eval_simOn`,
`Stmt.eval_simOn` and `Block.eval_simOn`, the one induction over syntax that statements about
evaluations rest on. It is enough that functions may be made that use no other names than the tree.
A property of a single evaluation is a coupling of the evaluation with itself.

The left evaluation may give up with a stop that the coupling allows; then nothing is said about the
right one.
-/

namespace Monkey

variable {α β γ δ : Type}

/-- A computation followed by another, on a machine. -/
lemma Eval.bind_apply (x : Eval α) (f : α → Eval β) (m : Machine) :
    (x >>= f) m = match x m with
      | (.ok a, m) => f a m
      | (.error s, m) => (.error s, m) := by
  simp only [bind, ExceptT.bind, ExceptT.mk, StateT.bind, ExceptT.bindCont, pure]
  cases x m with
  | mk r m => cases r <;> rfl

/-- A computation that only gives a value, on a machine. -/
lemma Eval.pure_apply (a : α) (m : Machine) : (pure a : Eval α) m = (.ok a, m) := rfl

/-- A look-up, on a machine. -/
lemma Eval.lookup_apply (i : Nat) (name : String) (m : Machine) :
    Eval.lookup i name m = match m.store.get? i name with
      | some v => (.ok v, m)
      | none => (.error (.failed (.unknownIdentifier name)), m) := by
  cases found : m.store.get? i name <;>
  · simp only [lookup, get, getThe, MonadStateOf.get, liftM, monadLift, MonadLift.monadLift,
      ExceptT.lift, ExceptT.mk, StateT.get, Functor.map, StateT.map, pure, bind, ExceptT.bind,
      ExceptT.bindCont, StateT.bind, found]
    rfl

/-- Two results of one kind whose parts are related. -/
inductive Outcomes (V : α → β → Prop) (S : Stop → Stop → Prop) :
    Except Stop α → Except Stop β → Prop where
  | ok {a b} : V a b → Outcomes V S (.ok a) (.ok b)
  | error {s t} : S s t → Outcomes V S (.error s) (.error t)

/-- Values of outcomes may be known by less. -/
lemma Outcomes.mono {V V' : α → β → Prop} {S : Stop → Stop → Prop} {r : Except Stop α}
    {r' : Except Stop β} (h : Outcomes V S r r') (le : ∀ a b, V a b → V' a b) :
    Outcomes V' S r r' := by
  cases h with
  | ok related => exact .ok (le _ _ related)
  | error related => exact .error related

/-- What two evaluations have in common at each moment. -/
structure Coupling where
  World : Type
  left : World → Machine
  right : World → Machine
  le : World → World → Prop
  scopes : World → Nat → Nat → Prop
  values : World → Value → Value → Prop
  stops : World → Stop → Stop → Prop
  /-- The stops with which the left evaluation may give up. -/
  givesUp : Stop → Prop
  refl : ∀ w, le w w
  trans : ∀ {w w' w''}, le w w' → le w' w'' → le w w''
  scopes_mono : ∀ {w w' i j}, le w w' → scopes w i j → scopes w' i j
  values_mono : ∀ {w w' a b}, le w w' → values w a b → values w' a b

namespace Coupling

variable (C : Coupling)

/-- From a world, two computations end in a world that may follow it, with related results, unless
the left one gives up. -/
def Sim (V : C.World → α → β → Prop) (w : C.World) (x : Eval α) (y : Eval β) : Prop :=
  (∃ s, (x (C.left w)).1 = .error s ∧ C.givesUp s) ∨
    ∃ w', C.le w w' ∧ C.left w' = (x (C.left w)).2 ∧ C.right w' = (y (C.right w)).2 ∧
      Outcomes (V w') (C.stops w') (x (C.left w)).1 (y (C.right w)).1

/-- Two ways to call functions keep to the coupling. -/
def Calls (c c' : Caller) : Prop :=
  ∀ ⦃w f f' args args'⦄, C.values w f f' → List.Forall₂ (C.values w) args args' →
    C.Sim C.values w (c f args) (c' f' args')

/-- The primitive steps of evaluation keep to the coupling, if a function is made only of code that
uses these names. -/
structure LawfulOn (names : String → Prop) : Prop where
  constant : ∀ w l, C.values w (.ofLiteral l) (.ofLiteral l)
  null : ∀ w, C.values w .null .null
  truthy : ∀ {w a b}, C.values w a b → a.isTruthy = b.isTruthy
  returned : ∀ {w a b}, C.values w a b → C.stops w (.returned a) (.returned b)
  prefixOp : ∀ {w a b} (op : PrefixOp), C.values w a b →
    C.Sim C.values w (Eval.ofExcept (op.apply a)) (Eval.ofExcept (op.apply b))
  infixOp : ∀ {w a b a' b'} (op : InfixOp), C.values w a b → C.values w a' b' →
    C.Sim C.values w (Eval.ofExcept (op.apply a a')) (Eval.ofExcept (op.apply b b'))
  lookup : ∀ {w i j} (name : String), C.scopes w i j →
    C.Sim C.values w (Eval.lookup i name) (Eval.lookup j name)
  assign : ∀ {w i j a b} (name : String), C.scopes w i j → C.values w a b →
    C.Sim (fun _ _ _ => True) w (Eval.assign i name a) (Eval.assign j name b)
  makeClosure : ∀ {w i j} (params : List Identifier) (body : Block),
    (∀ name ∈ body.uses, names name) → C.scopes w i j →
    C.Sim C.values w (Eval.makeClosure params body i) (Eval.makeClosure params body j)

/-- The primitive steps of evaluation keep to the coupling. -/
abbrev Lawful : Prop := C.LawfulOn fun _ => True

variable {C} {V : C.World → α → β → Prop} {W : C.World → γ → δ → Prop} {w : C.World}

/-- Related values are given in any world. -/
lemma Sim.pure {a : α} {b : β} (h : V w a b) : C.Sim V w (pure a) (pure b) :=
  .inr ⟨w, C.refl w, rfl, rfl, .ok h⟩

/-- Related stops are given in any world. -/
lemma Sim.throw {s t : Stop} (h : C.stops w s t) : C.Sim V w (throw s) (throw t) :=
  .inr ⟨w, C.refl w, rfl, rfl, .error h⟩

/-- Computations that stop on the spot, with related stops. -/
lemma Sim.stopped {x : Eval α} {y : Eval β} {s t : Stop}
    (hx : x (C.left w) = (.error s, C.left w)) (hy : y (C.right w) = (.error t, C.right w))
    (h : C.stops w s t) : C.Sim V w x y := by
  refine .inr ⟨w, C.refl w, ?_, ?_, ?_⟩
  · rw [hx]
  · rw [hy]
  · rw [hx, hy]
    exact .error h

/-- Only what the computations do on the machines of the world matters. -/
lemma Sim.congr {x x' : Eval α} {y y' : Eval β} (hx : x (C.left w) = x' (C.left w))
    (hy : y (C.right w) = y' (C.right w)) (h : C.Sim V w x' y') : C.Sim V w x y := by
  unfold Sim
  rw [hx, hy]
  exact h

/-- Values of simulations may be known by less. -/
lemma Sim.mono {V' : C.World → α → β → Prop} {x : Eval α} {y : Eval β} (h : C.Sim V w x y)
    (le : ∀ w a b, V w a b → V' w a b) : C.Sim V' w x y := by
  rcases h with up | ⟨w', follows, left, right, outcomes⟩
  · exact .inl up
  · exact .inr ⟨w', follows, left, right, outcomes.mono (le w')⟩

/-- Related computations followed by related computations are related. -/
lemma Sim.bind {x : Eval α} {y : Eval β} {f : α → Eval γ} {g : β → Eval δ} (h : C.Sim V w x y)
    (next : ∀ {w' a b}, C.le w w' → V w' a b → C.Sim W w' (f a) (g b)) :
    C.Sim W w (x >>= f) (y >>= g) := by
  simp only [Sim, Eval.bind_apply]
  rcases h with ⟨s, stopped, up⟩ | ⟨w', le, left, right, outcomes⟩
  · left
    -- What comes after a computation that gave up is not run.
    refine ⟨s, ?_, up⟩
    cases run : x (C.left w) with
    | mk r m =>
      rw [run] at stopped
      cases stopped
      rfl
  · cases runx : x (C.left w) with
    | mk r m =>
      cases runy : y (C.right w) with
      | mk r' m' =>
        rw [runx, runy] at outcomes
        rw [runx] at left
        rw [runy] at right
        cases left
        cases right
        cases outcomes with
        | error related => exact .inr ⟨w', le, rfl, rfl, .error related⟩
        | ok related =>
          rcases next le related with up | ⟨w'', le', rest⟩
          · exact .inl up
          · exact .inr ⟨w'', C.trans le le', rest⟩

end Coupling

section Syntax

open Coupling

variable {C : Coupling} {c c' : Caller} {names : String → Prop}

-- Each case runs the parts in order; a later part starts in a world that follows, where the scopes
-- and the values met so far are still related. The names that a part uses are names of the whole.
mutual

/-- Evaluations of an expression keep to a coupling that is lawful on the names it uses. -/
theorem Expr.eval_simOn (law : C.LawfulOn names) (calls : C.Calls c c') :
    ∀ (e : Expr) {w i j}, (∀ name ∈ e.uses, names name) → C.scopes w i j →
      C.Sim C.values w (e.eval c i) (e.eval c' j)
  | .literal value _, w, i, j, _, _ => by
    simp only [Expr.eval]
    exact .pure (law.constant w value)
  | .identifier x, w, i, j, _, hs => by
    simp only [Expr.eval]
    exact law.lookup x.name hs
  | .unary op operand _, w, i, j, hn, hs => by
    simp only [Expr.eval]
    refine .bind (operand.eval_simOn law calls hn hs) fun _ related => ?_
    exact law.prefixOp op related
  | .binary op left right _, w, i, j, hn, hs => by
    obtain ⟨hl, hr⟩ := List.forall_mem_append.1 hn
    simp only [Expr.eval]
    refine .bind (left.eval_simOn law calls hl hs) fun le related => ?_
    refine .bind (right.eval_simOn law calls hr (C.scopes_mono le hs)) fun le' related' => ?_
    exact law.infixOp op (C.values_mono le' related) related'
  | .conditional condition consequence none _, w, i, j, hn, hs => by
    obtain ⟨hc, hk⟩ := List.forall_mem_append.1 hn
    simp only [Expr.eval]
    refine .bind (condition.eval_simOn law calls hc hs) fun {w' _ _} le related => ?_
    rw [law.truthy related]
    split
    · exact consequence.eval_simOn law calls hk (C.scopes_mono le hs)
    · exact .pure (law.null w')
  | .conditional condition consequence (some alternative) _, w, i, j, hn, hs => by
    obtain ⟨hc, hn⟩ := List.forall_mem_append.1 hn
    obtain ⟨hk, ha⟩ := List.forall_mem_append.1 hn
    simp only [Expr.eval]
    refine .bind (condition.eval_simOn law calls hc hs) fun le related => ?_
    rw [law.truthy related]
    split
    · exact consequence.eval_simOn law calls hk (C.scopes_mono le hs)
    · exact alternative.eval_simOn law calls ha (C.scopes_mono le hs)
  | .function params body _, w, i, j, hn, hs => by
    simp only [Expr.eval]
    exact law.makeClosure params body hn hs
  | .call callee args _, w, i, j, hn, hs => by
    obtain ⟨hc, ha⟩ := List.forall_mem_append.1 hn
    simp only [Expr.eval]
    refine .bind (callee.eval_simOn law calls hc hs) fun le related => ?_
    refine .bind (Expr.evalList_simOn law calls args ha (C.scopes_mono le hs))
      fun le' related' => ?_
    exact calls (C.values_mono le' related) related'

/-- Expressions one behind the other keep to the coupling. -/
theorem Expr.evalList_simOn (law : C.LawfulOn names) (calls : C.Calls c c') :
    ∀ (es : List Expr) {w i j}, (∀ name ∈ Expr.usesList es, names name) → C.scopes w i j →
      C.Sim (fun w => List.Forall₂ (C.values w)) w (Expr.evalList c i es) (Expr.evalList c' j es)
  | [], w, i, j, _, _ => by
    simp only [Expr.evalList]
    exact .pure .nil
  | e :: others, w, i, j, hn, hs => by
    obtain ⟨he, ho⟩ := List.forall_mem_append.1 hn
    simp only [Expr.evalList]
    refine .bind (e.eval_simOn law calls he hs) fun le related => ?_
    refine .bind (Expr.evalList_simOn law calls others ho (C.scopes_mono le hs))
      fun le' related' => ?_
    exact .pure (.cons (C.values_mono le' related) related')

/-- The execution of a statement keeps to the coupling. -/
theorem Stmt.eval_simOn (law : C.LawfulOn names) (calls : C.Calls c c') :
    ∀ (s : Stmt) {w i j}, (∀ name ∈ s.uses, names name) → C.scopes w i j →
      C.Sim C.values w (s.eval c i) (s.eval c' j)
  | .letStmt x value _, w, i, j, hn, hs => by
    simp only [Stmt.eval]
    refine .bind (value.eval_simOn law calls hn hs) fun le related => ?_
    refine .bind (law.assign x.name (C.scopes_mono le hs) related) fun {w'' _ _} _ _ => ?_
    exact .pure (law.null w'')
  | .returnStmt value _, w, i, j, hn, hs => by
    simp only [Stmt.eval]
    refine .bind (value.eval_simOn law calls hn hs) fun _ related => ?_
    exact .throw (law.returned related)
  | .exprStmt value _, w, i, j, hn, hs => by
    simp only [Stmt.eval]
    exact value.eval_simOn law calls hn hs

/-- Statements one behind the other keep to the coupling. -/
theorem Stmt.evalList_simOn (law : C.LawfulOn names) (calls : C.Calls c c') :
    ∀ (ss : List Stmt) {w i j a b}, (∀ name ∈ Stmt.usesList ss, names name) → C.scopes w i j →
      C.values w a b → C.Sim C.values w (Stmt.evalList c i a ss) (Stmt.evalList c' j b ss)
  | [], w, i, j, a, b, _, _, related => by
    simp only [Stmt.evalList]
    exact .pure related
  | s :: others, w, i, j, a, b, hn, hs, _ => by
    obtain ⟨hf, ho⟩ := List.forall_mem_append.1 hn
    simp only [Stmt.evalList]
    refine .bind (s.eval_simOn law calls hf hs) fun le related => ?_
    exact Stmt.evalList_simOn law calls others ho (C.scopes_mono le hs) related

/-- The execution of a block keeps to the coupling. -/
theorem Block.eval_simOn (law : C.LawfulOn names) (calls : C.Calls c c') :
    ∀ (k : Block) {w i j}, (∀ name ∈ k.uses, names name) → C.scopes w i j →
      C.Sim C.values w (k.eval c i) (k.eval c' j)
  | ⟨statements, _⟩, w, i, j, hn, hs => by
    simp only [Block.eval]
    exact Stmt.evalList_simOn law calls statements hn hs (law.null w)

end

/-- Evaluations of an expression keep to a lawful coupling. -/
theorem Expr.eval_sim (law : C.Lawful) (calls : C.Calls c c') :
    ∀ (e : Expr) {w i j}, C.scopes w i j → C.Sim C.values w (e.eval c i) (e.eval c' j) :=
  fun e _ _ _ => e.eval_simOn law calls fun _ _ => trivial

/-- With laws for all names, expressions one behind the other keep to the coupling. -/
theorem Expr.evalList_sim (law : C.Lawful) (calls : C.Calls c c') :
    ∀ (es : List Expr) {w i j}, C.scopes w i j →
      C.Sim (fun w => List.Forall₂ (C.values w)) w (Expr.evalList c i es) (Expr.evalList c' j es) :=
  fun es _ _ _ => Expr.evalList_simOn law calls es fun _ _ => trivial

/-- With laws for all names, a statement keeps to it. -/
theorem Stmt.eval_sim (law : C.Lawful) (calls : C.Calls c c') :
    ∀ (s : Stmt) {w i j}, C.scopes w i j → C.Sim C.values w (s.eval c i) (s.eval c' j) :=
  fun s _ _ _ => s.eval_simOn law calls fun _ _ => trivial

/-- With laws for all names, statements one behind the other keep to it. -/
theorem Stmt.evalList_sim (law : C.Lawful) (calls : C.Calls c c') :
    ∀ (ss : List Stmt) {w i j a b}, C.scopes w i j → C.values w a b →
      C.Sim C.values w (Stmt.evalList c i a ss) (Stmt.evalList c' j b ss) :=
  fun ss _ _ _ _ _ => Stmt.evalList_simOn law calls ss fun _ _ => trivial

/-- With laws for all names, a block keeps to it. -/
theorem Block.eval_sim (law : C.Lawful) (calls : C.Calls c c') :
    ∀ (k : Block) {w i j}, C.scopes w i j → C.Sim C.values w (k.eval c i) (k.eval c' j) :=
  fun k _ _ _ => k.eval_simOn law calls fun _ _ => trivial

end Syntax

end Monkey
