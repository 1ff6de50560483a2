import Monkey.Proofs.Evaluation.Frame

/-!
# What an evaluation leaves behind

Whichever way an evaluation ends, as many calls are in progress afterwards as before: every call
counts itself in and out again, also when its body is left by a `return` or an error. And if no
name is bound outside of function bodies, all scopes are afterwards what they were: calls bind names
in scopes of their own, and only a `let` binds one in the scope of the evaluation. Main statements:
`Node.eval_depth` and `Program.eval_quiet`.
-/

namespace Monkey

section Depth

/-- As many calls are in progress in the second machine as in the first one. -/
def Machine.SameDepth (m m' : Machine) : Prop := m'.depth = m.depth

/-- A machine is as deep as itself. -/
lemma Machine.SameDepth.refl (m : Machine) : m.SameDepth m := rfl

/-- What evaluations do to the number of calls in progress: nothing. -/
def level : Agreement where
  World := Machine
  left := id
  right := id
  le := Machine.SameDepth
  scope _ _ := True
  value _ _ := True
  stop _ _ := True
  givesUp _ := False
  refl := Machine.SameDepth.refl
  trans h h' := h'.trans h
  scope_mono _ h := h
  value_mono _ h := h
  plain _ _ _ := trivial
  returned _ := trivial
  failed _ _ := trivial

variable {α : Type} {m : Machine} {x : Eval α}

/-- A computation that keeps the depth keeps level. -/
lemma level_sim (same : (x m).2.depth = m.depth) : level.Sim (fun _ _ => True) m x x :=
  Agreement.sim_alone (A := level) (fun _ => rfl) (x m).2 same rfl (fun _ _ => trivial)
    fun _ _ => trivial

/-- A computation that keeps level keeps the depth. -/
lemma depth_of_level_sim {V : Machine → α → α → Prop} (h : level.coupling.Sim V m x x) :
    (x m).2.depth = m.depth := by
  rcases h with ⟨_, _, none⟩ | ⟨m', same, left, _, _⟩
  · exact none.elim
  · cases left
    exact same

/-- The operations of an evaluation keep level. -/
lemma level_lawful : level.Lawful where
  lookup := by
    intro (m : Machine) i name _
    apply level_sim
    rw [Eval.lookup_apply]
    split <;> rfl
  assign := by
    intro (m : Machine) i v name _ _
    exact .inr ⟨(Eval.assign i name v m).2, rfl, rfl, rfl, .ok trivial⟩
  makeClosure := by
    intro (m : Machine) i params body _ _
    exact level_sim rfl

/-- Calls keep level. -/
lemma level_calls (limit fuel : Nat) :
    level.coupling.Calls (call limit fuel) (call limit fuel) := by
  rw [call_eq_callBy]
  apply Agreement.calls
  · exact fun _ => rfl
  · exact fun _ => trivial
  · intro fuel (m : Machine) f args calls _ _
    apply level_sim
    have body := depth_of_level_sim (f.body.eval_sim level_lawful.coupling calls
      (w := (m.enter f args).2) (i := m.store.size) ⟨rfl, trivial⟩)
    -- The call is counted when it is entered, the body leaves the count, and the end takes it back.
    rw [Closure.runBy_apply]
    show (f.body.eval _ m.store.size (m.enter f args).2).2.depth - 1 = m.depth
    rw [body]
    rfl

/-- An evaluation leaves as many calls in progress as there were. -/
lemma Node.eval_depth (b : Bounds) (node : Node) (scope : Nat) (m : Machine) :
    (node.eval b scope m).2.depth = m.depth := by
  have law := level_lawful.coupling
  have calls := level_calls b.limit b.fuel
  cases node with
  | program p =>
    exact depth_of_level_sim (Stmt.evalList_sim law calls p.statements (w := m) (i := scope)
      ⟨rfl, trivial⟩ ⟨rfl, trivial⟩)
  | statement s =>
    exact depth_of_level_sim (s.eval_sim law calls (w := m) (i := scope) ⟨rfl, trivial⟩)
  | block k =>
    exact depth_of_level_sim (k.eval_sim law calls (w := m) (i := scope) ⟨rfl, trivial⟩)
  | expression e =>
    exact depth_of_level_sim (e.eval_sim law calls (w := m) (i := scope) ⟨rfl, trivial⟩)

end Depth

mutual

/-- Evaluating the expression itself binds no name: there is no `let` in it but in the bodies of
functions. -/
def Expr.isQuiet : Expr → Bool
  | .literal _ _ => true
  | .identifier _ => true
  | .unary _ operand _ => operand.isQuiet
  | .binary _ left right _ => left.isQuiet && right.isQuiet
  | .conditional condition consequence none _ => condition.isQuiet && consequence.isQuiet
  | .conditional condition consequence (some alternative) _ =>
    condition.isQuiet && consequence.isQuiet && alternative.isQuiet
  | .function _ _ _ => true
  | .call callee args _ => callee.isQuiet && Expr.areQuiet args

/-- Evaluating the expressions themselves binds no name. -/
def Expr.areQuiet : List Expr → Bool
  | [] => true
  | e :: others => e.isQuiet && Expr.areQuiet others

/-- Executing the statement itself binds no name. -/
def Stmt.isQuiet : Stmt → Bool
  | .letStmt _ _ _ => false
  | .returnStmt value _ => value.isQuiet
  | .exprStmt value _ => value.isQuiet

/-- Executing the statements themselves binds no name. -/
def Stmt.areQuiet : List Stmt → Bool
  | [] => true
  | s :: others => s.isQuiet && Stmt.areQuiet others

/-- Executing the block itself binds no name. -/
def Block.isQuiet : Block → Bool
  | ⟨statements, _⟩ => Stmt.areQuiet statements

end

/-- There is no `let` in the program but in the bodies of functions. -/
def Program.isQuiet (p : Program) : Bool := Stmt.areQuiet p.statements

/-- A computation that leaves all scopes as they were. -/
def Eval.Quiet {α : Type} (x : Eval α) : Prop :=
  ∀ m : Machine, m.store.Grows Store.untouched (x m).2.store

namespace Eval.Quiet

variable {α β : Type}

/-- A computation that leaves the store alone is quiet. -/
lemma of_store {x : Eval α} (same : ∀ m, (x m).2.store = m.store) : Quiet x := by
  intro m
  rw [same]
  exact .refl _ _

/-- Quiet computations may run one behind the other. -/
lemma bind {x : Eval α} {f : α → Eval β} (first : Quiet x) (next : ∀ a, Quiet (f a)) :
    Quiet (x >>= f) := by
  intro m
  have grows := first m
  rw [Eval.bind_apply]
  cases run : x m with
  | mk result m' =>
    rw [run] at grows
    cases result with
    | ok a => exact grows.trans (next a m')
    | error s => exact grows

/-- A value leaves the store alone. -/
lemma pure (a : α) : Quiet (pure a : Eval α) := .of_store fun _ => rfl

/-- An error leaves the store alone. -/
lemma ofExcept (x : Except RuntimeError Value) : Quiet (Eval.ofExcept x) := by
  cases x with
  | ok v => exact .of_store fun _ => rfl
  | error e => exact .of_store fun _ => rfl

/-- A look-up leaves the store alone. -/
lemma lookup (i : Nat) (name : String) : Quiet (Eval.lookup i name) := by
  apply of_store
  intro m
  rw [Eval.lookup_apply]
  split <;> rfl

end Eval.Quiet

section Syntax

variable {c : Caller}

mutual

/-- An expression without a `let` outside of functions is quiet if calls are. -/
theorem Expr.eval_quiet (calls : ∀ v args, (c v args).Quiet) :
    ∀ (e : Expr) (i : Nat), e.isQuiet → (e.eval c i).Quiet
  | .literal value _, i, _ => by
    simp only [Expr.eval]
    exact .pure _
  | .identifier x, i, _ => by
    simp only [Expr.eval]
    exact .lookup i x.name
  | .unary op operand _, i, quiet => by
    simp only [Expr.eval]
    exact .bind (operand.eval_quiet calls i quiet) fun _ => .ofExcept _
  | .binary op left right _, i, quiet => by
    simp only [Expr.isQuiet, Bool.and_eq_true] at quiet
    simp only [Expr.eval]
    exact .bind (left.eval_quiet calls i quiet.1) fun _ =>
      .bind (right.eval_quiet calls i quiet.2) fun _ => .ofExcept _
  | .conditional condition consequence none _, i, quiet => by
    simp only [Expr.isQuiet, Bool.and_eq_true] at quiet
    simp only [Expr.eval]
    refine .bind (condition.eval_quiet calls i quiet.1) fun holds => ?_
    split
    · exact consequence.eval_quiet calls i quiet.2
    · exact .pure _
  | .conditional condition consequence (some alternative) _, i, quiet => by
    simp only [Expr.isQuiet, Bool.and_eq_true] at quiet
    simp only [Expr.eval]
    refine .bind (condition.eval_quiet calls i quiet.1.1) fun holds => ?_
    split
    · exact consequence.eval_quiet calls i quiet.1.2
    · exact alternative.eval_quiet calls i quiet.2
  | .function params body _, i, _ => by
    simp only [Expr.eval]
    intro m
    exact .countClosure m.store
  | .call callee args _, i, quiet => by
    simp only [Expr.isQuiet, Bool.and_eq_true] at quiet
    simp only [Expr.eval]
    exact .bind (callee.eval_quiet calls i quiet.1) fun _ =>
      .bind (Expr.evalList_quiet calls args i quiet.2) fun _ => calls _ _

/-- Such expressions are quiet one behind the other. -/
theorem Expr.evalList_quiet (calls : ∀ v args, (c v args).Quiet) :
    ∀ (es : List Expr) (i : Nat), Expr.areQuiet es → (Expr.evalList c i es).Quiet
  | [], i, _ => by
    simp only [Expr.evalList]
    exact .pure _
  | e :: others, i, quiet => by
    simp only [Expr.areQuiet, Bool.and_eq_true] at quiet
    simp only [Expr.evalList]
    exact .bind (e.eval_quiet calls i quiet.1) fun _ =>
      .bind (Expr.evalList_quiet calls others i quiet.2) fun _ => .pure _

/-- Such a statement is quiet. -/
theorem Stmt.eval_quiet (calls : ∀ v args, (c v args).Quiet) :
    ∀ (s : Stmt) (i : Nat), s.isQuiet → (s.eval c i).Quiet
  | .returnStmt value _, i, quiet => by
    simp only [Stmt.eval]
    exact .bind (value.eval_quiet calls i quiet) fun _ => .of_store fun _ => rfl
  | .exprStmt value _, i, quiet => by
    simp only [Stmt.eval]
    exact value.eval_quiet calls i quiet

/-- Such statements are quiet one behind the other. -/
theorem Stmt.evalList_quiet (calls : ∀ v args, (c v args).Quiet) :
    ∀ (ss : List Stmt) (i : Nat) (last : Value), Stmt.areQuiet ss →
      (Stmt.evalList c i last ss).Quiet
  | [], i, last, _ => by
    simp only [Stmt.evalList]
    exact .pure _
  | s :: others, i, last, quiet => by
    simp only [Stmt.areQuiet, Bool.and_eq_true] at quiet
    simp only [Stmt.evalList]
    exact .bind (s.eval_quiet calls i quiet.1) fun v => Stmt.evalList_quiet calls others i v quiet.2

/-- Such a block is quiet. -/
theorem Block.eval_quiet (calls : ∀ v args, (c v args).Quiet) :
    ∀ (k : Block) (i : Nat), k.isQuiet → (k.eval c i).Quiet
  | ⟨statements, _⟩, i, quiet => by
    simp only [Block.eval]
    exact Stmt.evalList_quiet calls statements i _ quiet

end

end Syntax

/-- A program without a `let` outside of function bodies leaves all scopes as they were. -/
theorem Program.eval_quiet (b : Bounds) {p : Program} (quiet : p.isQuiet) (i : Nat) (m : Machine) :
    m.store.Grows Store.untouched (p.eval b i m).2.store := by
  have calls v args : (call b.limit b.fuel v args).Quiet := by
    intro m
    rw [call_eq_callBy]
    exact callBy_grows Machine.leave_modest b.limit b.fuel v args m
  exact Stmt.evalList_quiet calls p.statements i .null quiet m

end Monkey
