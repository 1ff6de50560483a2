import Monkey.Proofs.Evaluation.Coupling

/-!
# Tasks and their parts

What an evaluation has to do at a moment is a task: an expression, a list of arguments, a statement,
statements in a row, or a call. A task is made up of smaller tasks in the same scope, done one after
another; `Part` says which, and in which machine each one begins. Main statements: `Part.stops`,
what stops a part stops the whole, `Part.transfer`, the parts of a task depend on the way to call
functions only by what the parts before them come to, and `Part.kept` and `Part.ends`, what all
tasks keep to holds from the beginning of a task to a part of it, and from there to the end.
-/

namespace Monkey

/-- What is to be evaluated. -/
inductive Task where
  | expr (e : Expr)
  | args (es : List Expr)
  | stmt (s : Stmt)
  /-- Statements one after another, with the value there was before them. -/
  | body (last : Value) (ss : List Stmt)
  | call (callee : Value) (args : List Value)

/-- The result with its value in a list. -/
def Eval.listed : Except Stop Value × Machine → Except Stop (List Value) × Machine
  | (r, m) => (r.map fun v => [v], m)

/-- What a task comes to: its value, or the values of arguments. -/
def Task.run (c : Caller) (scope : Nat) (m : Machine) :
    Task → Except Stop (List Value) × Machine
  | .expr e => Eval.listed (e.eval c scope m)
  | .args es => Expr.evalList c scope es m
  | .stmt s => Eval.listed (s.eval c scope m)
  | .body last ss => Eval.listed (Stmt.evalList c scope last ss m)
  | .call callee values => Eval.listed (c callee values m)

/-- The first task, begun on the first machine, is directly made up of the second task, begun on the
second machine, among others. -/
inductive Part (c : Caller) (scope : Nat) : Task → Machine → Task → Machine → Prop where
  | operand {op e span m} :
    Part c scope (.expr (.unary op e span)) m (.expr e) m
  | left {op a b span m} :
    Part c scope (.expr (.binary op a b span)) m (.expr a) m
  | right {op a b span m v m'} :
    a.eval c scope m = (.ok v, m') →
    Part c scope (.expr (.binary op a b span)) m (.expr b) m'
  | condition {e k alternative span m} :
    Part c scope (.expr (.conditional e k alternative span)) m (.expr e) m
  | consequence {e k alternative span m v m'} :
    e.eval c scope m = (.ok v, m') →
    v.isTruthy = true →
    Part c scope (.expr (.conditional e k alternative span)) m (.body .null k.statements) m'
  | alternative {e k k' span m v m'} :
    e.eval c scope m = (.ok v, m') →
    v.isTruthy = false →
    Part c scope (.expr (.conditional e k (some k') span)) m (.body .null k'.statements) m'
  | callee {f args span m} :
    Part c scope (.expr (.call f args span)) m (.expr f) m
  | arguments {f args span m v m'} :
    f.eval c scope m = (.ok v, m') →
    Part c scope (.expr (.call f args span)) m (.args args) m'
  | called {f args span m v m' vs m''} :
    f.eval c scope m = (.ok v, m') →
    Expr.evalList c scope args m' = (.ok vs, m'') →
    Part c scope (.expr (.call f args span)) m (.call v vs) m''
  | first {e es m} :
    Part c scope (.args (e :: es)) m (.expr e) m
  | others {e es m v m'} :
    e.eval c scope m = (.ok v, m') →
    Part c scope (.args (e :: es)) m (.args es) m'
  | bound {x e span m} :
    Part c scope (.stmt (.letStmt x e span)) m (.expr e) m
  | returned {e span m} :
    Part c scope (.stmt (.returnStmt e span)) m (.expr e) m
  | value {e span m} :
    Part c scope (.stmt (.exprStmt e span)) m (.expr e) m
  | statement {last s ss m} :
    Part c scope (.body last (s :: ss)) m (.stmt s) m
  | following {last s ss m v m'} :
    s.eval c scope m = (.ok v, m') →
    Part c scope (.body last (s :: ss)) m (.body v ss) m'

namespace Eval

variable {α β : Type} {x : Eval α} {f : α → Eval β} {m m' : Machine}

/-- A computation that stops keeps what follows from being run. -/
lemma bind_stopped {s : Stop} (h : (x m).1 = .error s) : ((x >>= f) m).1 = .error s := by
  rw [bind_apply]
  cases run : x m with
  | mk r m' =>
    rw [run] at h
    cases h
    rfl

/-- A computation goes on behind one that gives a value. -/
lemma bind_of_ok {a : α} (h : x m = (.ok a, m')) : (x >>= f) m = f a m' := by
  rw [bind_apply, h]

/-- A stop comes from the first computation or, if that gave a value, from what follows. -/
lemma bind_eq_error {s : Stop} (h : ((x >>= f) m).1 = .error s) :
    (x m).1 = .error s ∨ ∃ a m', x m = (.ok a, m') ∧ (f a m').1 = .error s := by
  rw [bind_apply] at h
  cases run : x m with
  | mk r m' =>
    rw [run] at h
    cases r with
    | ok a => exact .inr ⟨a, m', rfl, h⟩
    | error s' =>
      cases h
      exact .inl rfl

/-- An error of an operation is the error it fails with. -/
lemma ofExcept_eq_error {r : Except RuntimeError α} {error : RuntimeError}
    (h : (ofExcept r m).1 = .error (.failed error)) : r = .error error := by
  cases r with
  | ok a => cases h
  | error e =>
    cases h
    rfl

/-- What holds after a computation, and is kept to by what follows, holds at the end. -/
lemma bind_keeps {P : Machine → Prop} (first : P (x m).2)
    (rest : ∀ a m', P m' → P (f a m').2) : P ((x >>= f) m).2 := by
  rw [bind_apply]
  cases run : x m with
  | mk r m' =>
    rw [run] at first
    cases r with
    | ok a => exact rest a m' first
    | error s => exact first

/-- An operation leaves the machine alone. -/
lemma ofExcept_snd (r : Except RuntimeError α) (m : Machine) : (ofExcept r m).2 = m := by
  cases r <;> rfl

/-- A value in a row leaves the machine that the value left. -/
@[simp] lemma listed_snd (r : Except Stop Value × Machine) : (listed r).2 = r.2 := rfl

/-- Computations that give the same in a row give the same. -/
lemma listed_inj {r r' : Except Stop Value × Machine} : listed r = listed r' ↔ r = r' := by
  refine ⟨fun eq => ?_, congrArg listed⟩
  obtain ⟨_ | v, m⟩ := r <;> obtain ⟨_ | v', m'⟩ := r' <;> cases eq <;> rfl

/-- A value in a row is stopped as the value is. -/
lemma listed_eq_error_iff {r : Except Stop Value × Machine} {s : Stop} :
    (listed r).1 = .error s ↔ r.1 = .error s := by
  obtain ⟨r, m⟩ := r
  cases r <;> simp [listed, Except.map]

/-- A listed result is a single value. -/
lemma listed_eq_ok {r : Except Stop Value × Machine} {vs : List Value}
    (h : (listed r).1 = .ok vs) : ∃ v, r.1 = .ok v ∧ vs = [v] := by
  obtain ⟨_ | v, m⟩ := r
  · cases h
  · cases h
    exact ⟨v, rfl, rfl⟩

/-- A value in a row is the only one in it. -/
lemma listed_eq_ok_iff {r : Except Stop Value × Machine} {v : Value} :
    listed r = (.ok [v], m) ↔ r = (.ok v, m) := by
  obtain ⟨r, m⟩ := r
  cases r <;> simp [listed, Except.map]

end Eval

open Eval

/-- A block is executed as its statements are. -/
lemma Block.eval_eq (c : Caller) (scope : Nat) (k : Block) :
    k.eval c scope = Stmt.evalList c scope .null k.statements := by
  cases k
  simp only [Block.eval, Block.statements]

section Parts

variable {c c' : Caller} {scope : Nat} {t t' : Task} {m m' : Machine}

/-- What stops a part stops the whole. -/
lemma Part.stops {s : Stop} (h : Part c scope t m t' m')
    (stopped : (t'.run c scope m').1 = .error s) : (t.run c scope m).1 = .error s := by
  -- What comes before the part came to values, so the whole is run up to the part.
  cases h with
  | operand | left | callee =>
    simp only [Task.run, listed_eq_error_iff, Expr.eval] at stopped ⊢
    exact bind_stopped stopped
  | right ok | arguments ok =>
    simp only [Task.run, listed_eq_error_iff, Expr.eval] at stopped ⊢
    rw [bind_of_ok ok]
    exact bind_stopped stopped
  | @condition _ _ alternative =>
    simp only [Task.run, listed_eq_error_iff] at stopped ⊢
    cases alternative <;>
    · rw [Expr.eval]
      exact bind_stopped stopped
  | @consequence _ _ alternative _ _ _ _ ok holds =>
    simp only [Task.run, listed_eq_error_iff, ← Block.eval_eq] at stopped ⊢
    cases alternative <;>
    · rw [Expr.eval, bind_of_ok ok, if_pos holds]
      exact stopped
  | alternative ok fails =>
    simp only [Task.run, listed_eq_error_iff, ← Block.eval_eq] at stopped ⊢
    rw [Expr.eval, bind_of_ok ok, if_neg (by simp [fails])]
    exact stopped
  | called ok ok' =>
    simp only [Task.run, listed_eq_error_iff, Expr.eval] at stopped ⊢
    rw [bind_of_ok ok, bind_of_ok ok']
    exact stopped
  | first =>
    simp only [Task.run, listed_eq_error_iff, Expr.evalList] at stopped ⊢
    exact bind_stopped stopped
  | others ok =>
    simp only [Task.run, Expr.evalList] at stopped ⊢
    rw [bind_of_ok ok]
    exact bind_stopped stopped
  | bound | returned | statement =>
    simp only [Task.run, listed_eq_error_iff, Stmt.eval, Stmt.evalList] at stopped ⊢
    exact bind_stopped stopped
  | value =>
    simp only [Task.run, listed_eq_error_iff, Stmt.eval] at stopped ⊢
    exact stopped
  | following ok =>
    simp only [Task.run, listed_eq_error_iff, Stmt.evalList] at stopped ⊢
    rw [bind_of_ok ok]
    exact stopped

/-- With another way to call functions a task has the parts that it has, as long as the parts before
them come to the same values. -/
lemma Part.transfer (h : Part c scope t m t' m')
    (same : ∀ ⦃t₁ m₁ vs m₂⦄, Part c scope t m t₁ m₁ → Part c' scope t m t₁ m₁ →
      t₁.run c scope m₁ = (.ok vs, m₂) → t₁.run c' scope m₁ = (.ok vs, m₂)) :
    Part c' scope t m t' m' := by
  cases h with
  | operand => exact .operand
  | left => exact .left
  | right ok => exact .right (listed_eq_ok_iff.1 (same .left .left (listed_eq_ok_iff.2 ok)))
  | condition => exact .condition
  | consequence ok holds =>
    exact .consequence (listed_eq_ok_iff.1 (same .condition .condition (listed_eq_ok_iff.2 ok)))
      holds
  | alternative ok fails =>
    exact .alternative (listed_eq_ok_iff.1 (same .condition .condition (listed_eq_ok_iff.2 ok)))
      fails
  | callee => exact .callee
  | arguments ok =>
    exact .arguments (listed_eq_ok_iff.1 (same .callee .callee (listed_eq_ok_iff.2 ok)))
  | called ok ok' =>
    have callee := listed_eq_ok_iff.1 (same .callee .callee (listed_eq_ok_iff.2 ok))
    exact .called callee (same (.arguments ok) (.arguments callee) ok')
  | first => exact .first
  | others ok => exact .others (listed_eq_ok_iff.1 (same .first .first (listed_eq_ok_iff.2 ok)))
  | bound => exact .bound
  | returned => exact .returned
  | value => exact .value
  | statement => exact .statement
  | following ok =>
    exact .following (listed_eq_ok_iff.1 (same .statement .statement (listed_eq_ok_iff.2 ok)))

/-- What the parts of a task leave as it was is as it was when a part begins. -/
lemma Part.kept {P : Machine → Prop} (h : Part c scope t m t' m')
    (keep : ∀ ⦃t₁ m₁ vs m₂⦄, Part c scope t m t₁ m₁ → t₁.run c scope m₁ = (.ok vs, m₂) →
      P m₁ → P m₂) (start : P m) : P m' := by
  cases h with
  | operand | left | condition | callee | first | bound | returned | value | statement =>
    exact start
  | right ok => exact keep .left (listed_eq_ok_iff.2 ok) start
  | consequence ok _ | alternative ok _ => exact keep .condition (listed_eq_ok_iff.2 ok) start
  | arguments ok => exact keep .callee (listed_eq_ok_iff.2 ok) start
  | called ok ok' =>
    exact keep (.arguments ok) ok' (keep .callee (listed_eq_ok_iff.2 ok) start)
  | others ok => exact keep .first (listed_eq_ok_iff.2 ok) start
  | following ok => exact keep .statement (listed_eq_ok_iff.2 ok) start

/-- What tasks and bindings keep to, and holds where a part of a task ends, holds where the task
ends. -/
lemma Part.ends {P : Machine → Prop} (h : Part c scope t m t' m')
    (keep : ∀ (t₁ : Task) m₁, P m₁ → P (t₁.run c scope m₁).2)
    (assign : ∀ name v m₁, P m₁ → P (assign scope name v m₁).2)
    (ended : P (t'.run c scope m').2) : P (t.run c scope m).2 := by
  have applied {r : Except RuntimeError Value} {m₁ : Machine} (held : P m₁) :
      P (ofExcept r m₁).2 := (ofExcept_snd r m₁).symm ▸ held
  have block (k : Block) {m₁ : Machine} (held : P m₁) : P (k.eval c scope m₁).2 := by
    rw [Block.eval_eq]
    exact keep (.body .null k.statements) m₁ held
  -- What is left after a part are further tasks, a binding, or an operator on values.
  cases h with
  | operand =>
    simp only [Task.run, listed_snd, Expr.eval] at ended ⊢
    exact bind_keeps ended fun _ _ => applied
  | @left _ _ b =>
    simp only [Task.run, listed_snd, Expr.eval] at ended ⊢
    refine bind_keeps ended fun _ m₁ held => ?_
    exact bind_keeps (keep (.expr b) m₁ held) fun _ _ => applied
  | right ok =>
    simp only [Task.run, listed_snd, Expr.eval] at ended ⊢
    rw [bind_of_ok ok]
    exact bind_keeps ended fun _ _ => applied
  | @condition _ k alternative =>
    simp only [Task.run, listed_snd] at ended ⊢
    cases alternative with
    | none =>
      rw [Expr.eval]
      refine bind_keeps ended fun v m₁ held => ?_
      split
      · exact block k held
      · exact held
    | some k' =>
      rw [Expr.eval]
      refine bind_keeps ended fun v m₁ held => ?_
      split
      · exact block k held
      · exact block k' held
  | @consequence _ _ alternative _ _ _ _ ok holds =>
    simp only [Task.run, listed_snd, ← Block.eval_eq] at ended ⊢
    cases alternative <;>
    · rw [Expr.eval, bind_of_ok ok, if_pos holds]
      exact ended
  | alternative ok fails =>
    simp only [Task.run, listed_snd, ← Block.eval_eq] at ended ⊢
    rw [Expr.eval, bind_of_ok ok, if_neg (by simp [fails])]
    exact ended
  | @callee _ args =>
    simp only [Task.run, listed_snd, Expr.eval] at ended ⊢
    refine bind_keeps ended fun v m₁ held => ?_
    exact bind_keeps (keep (.args args) m₁ held) fun vs m₂ => keep (.call v vs) m₂
  | @arguments _ _ _ _ v _ ok =>
    simp only [Task.run, listed_snd, Expr.eval] at ended ⊢
    rw [bind_of_ok ok]
    exact bind_keeps ended fun vs m₂ => keep (.call v vs) m₂
  | called ok ok' =>
    simp only [Task.run, listed_snd, Expr.eval] at ended ⊢
    rw [bind_of_ok ok, bind_of_ok ok']
    exact ended
  | @first _ es =>
    simp only [Task.run, listed_snd, Expr.evalList] at ended ⊢
    refine bind_keeps ended fun v m₁ held => ?_
    exact bind_keeps (keep (.args es) m₁ held) fun _ _ held => held
  | others ok =>
    simp only [Task.run, Expr.evalList] at ended ⊢
    rw [bind_of_ok ok]
    exact bind_keeps ended fun _ _ held => held
  | @bound x =>
    simp only [Task.run, listed_snd, Stmt.eval] at ended ⊢
    refine bind_keeps ended fun v m₁ held => ?_
    exact bind_keeps (assign x.name v m₁ held) fun _ _ held => held
  | returned =>
    simp only [Task.run, listed_snd, Stmt.eval] at ended ⊢
    exact bind_keeps ended fun _ _ held => held
  | value =>
    simp only [Task.run, listed_snd, Stmt.eval] at ended ⊢
    exact ended
  | @statement _ _ ss =>
    simp only [Task.run, listed_snd, Stmt.evalList] at ended ⊢
    exact bind_keeps ended fun v m₁ => keep (.body v ss) m₁
  | following ok =>
    simp only [Task.run, listed_snd, Stmt.evalList] at ended ⊢
    rw [bind_of_ok ok]
    exact ended

end Parts

/-- How large the text of a task is. -/
noncomputable def Task.size : Task → Nat
  | .expr e => sizeOf e
  | .args es => sizeOf es
  | .stmt s => sizeOf s
  | .body _ ss => sizeOf ss
  | .call _ _ => 0

/-- The statements of a block are smaller than the block. -/
lemma Block.sizeOf_statements_lt (k : Block) : sizeOf k.statements < sizeOf k := by
  obtain ⟨statements, span⟩ := k
  show sizeOf statements < _
  rw [Block.mk.sizeOf_spec]
  omega

/-- Within one scope parts are smaller. -/
lemma Part.size_lt {c : Caller} {scope : Nat} {t t' : Task} {m m' : Machine}
    (h : Part c scope t m t' m') : t'.size < t.size := by
  cases h with
  | @consequence _ k | @alternative _ _ k =>
    have := k.sizeOf_statements_lt
    simp only [Task.size, Expr.conditional.sizeOf_spec, Option.some.sizeOf_spec]
    omega
  | _ =>
    simp only [Task.size, Expr.unary.sizeOf_spec, Expr.binary.sizeOf_spec,
      Expr.conditional.sizeOf_spec, Expr.call.sizeOf_spec, List.cons.sizeOf_spec,
      Stmt.letStmt.sizeOf_spec, Stmt.returnStmt.sizeOf_spec, Stmt.exprStmt.sizeOf_spec]
    omega

end Monkey
