import Monkey.Proofs.Evaluation.Leaving
import Monkey.Proofs.Evaluation.Task
import Mathlib.Logic.Relation

/-!
# The course of an evaluation

An evaluation goes from point to point: at each one a task begins, in a scope of a machine, with
some fuel. From a task it goes on to the parts of the task, and from a call that is not refused to
the body of the function (`Starts`). What stops the evaluation from a later point on stops the whole
evaluation, but for a `return`, which ends with the body of a function (`Starts.stops`). Main
statement: `Point.exists_raises`, an evaluation that fails comes by the point where the error is
raised.
-/

namespace Monkey

/-- A task about to begin in a scope of a machine, with so much fuel. -/
structure Point where
  task : Task
  scope : Nat
  machine : Machine
  fuel : Nat

/-- What the task at a point comes to. -/
def Point.run (limit : Nat) (now : Point) : Except Stop (List Value) × Machine :=
  now.task.run (call limit now.fuel) now.scope now.machine

/-- The evaluation from the first point on is directly made up of the one from the second point on,
among others. -/
inductive Starts (limit : Nat) : Point → Point → Prop where
  | part {t i m n t' m'} :
    Part (call limit n) i t m t' m' →
    Starts limit ⟨t, i, m, n⟩ ⟨t', i, m', n⟩
  | entered {f args i m n} :
    f.params.length = args.length →
    ¬ (0 < limit ∧ limit ≤ m.depth) →
    Starts limit ⟨.call (.function f) args, i, m, n + 1⟩
      ⟨.body .null f.body.statements, m.store.size, (m.enter f args).2, n⟩

/-- The evaluation from the first point on comes by the second point. -/
def Point.ComesBy (limit : Nat) : Point → Point → Prop := Relation.ReflTransGen (Starts limit)

/-- An error raised at a point itself, after the parts of its task have come to values. -/
inductive Raises (limit : Nat) : Point → RuntimeError → Prop where
  | unknown {x i m n} :
    m.store.get? i x.name = none →
    Raises limit ⟨.expr (.identifier x), i, m, n⟩ (.unknownIdentifier x.name)
  | prefixOp {op e span i m n v m' error} :
    e.eval (call limit n) i m = (.ok v, m') →
    op.apply v = .error error →
    Raises limit ⟨.expr (.unary op e span), i, m, n⟩ error
  | infixOp {op a b span i m n v m' v' m'' error} :
    a.eval (call limit n) i m = (.ok v, m') →
    b.eval (call limit n) i m' = (.ok v', m'') →
    op.apply v v' = .error error →
    Raises limit ⟨.expr (.binary op a b span), i, m, n⟩ error
  | notAFunction {v args i m n} :
    (∀ f, v ≠ .function f) →
    Raises limit ⟨.call v args, i, m, n⟩ (.notAFunction v.type)
  | arityMismatch {f args i m n} :
    f.params.length ≠ args.length →
    Raises limit ⟨.call (.function f) args, i, m, n⟩ (.arityMismatch f.params.length args.length)
  | callDepthExceeded {f args i m n} :
    f.params.length = args.length →
    0 < limit →
    limit ≤ m.depth →
    Raises limit ⟨.call (.function f) args, i, m, n⟩ (.callDepthExceeded limit)

open Eval

section Calls

variable {limit n i : Nat} {f : Closure} {args : List Value} {m : Machine}

/-- A result is a stop after a `return` was caught if it was a stop other than a `return`. -/
lemma Machine.caught_eq_error_iff {r : Except Stop Value} {s : Stop} :
    caught r = .error s ↔ r = .error s ∧ ∀ v, s ≠ .returned v := by
  rcases r with (v | e | _) | v
  · simp only [caught, reduceCtorEq, false_iff, Except.error.injEq, not_and, not_forall, not_not]
    exact fun eq => ⟨v, eq.symm⟩
  · simp only [caught, Except.error.injEq, iff_self_and]
    rintro rfl v eq
    cases eq
  · simp only [caught, Except.error.injEq, iff_self_and]
    rintro rfl v eq
    cases eq
  · simp [caught]

/-- A call beyond the limit is refused. -/
lemma call_refused (arity : f.params.length = args.length)
    (exceeded : 0 < limit ∧ limit ≤ m.depth) :
    (call limit n (.function f) args m).1 = .error (.failed (.callDepthExceeded limit)) := by
  rw [call_eq_callBy, callBy_function_apply _ _ _ _ arity, if_pos exceeded]

/-- A call without fuel is not made. -/
lemma call_exhausted (arity : f.params.length = args.length)
    (allowed : ¬ (0 < limit ∧ limit ≤ m.depth)) :
    (call limit 0 (.function f) args m).1 = .error .outOfFuel := by
  rw [call_eq_callBy, callBy_function_apply _ _ _ _ arity, if_neg allowed]

/-- A call that is begun comes to what the body of the function comes to. -/
lemma call_entered (arity : f.params.length = args.length)
    (allowed : ¬ (0 < limit ∧ limit ≤ m.depth)) :
    (call limit (n + 1) (.function f) args m).1 =
      Machine.caught (f.body.eval (call limit n) m.store.size (m.enter f args).2).1 := by
  rw [call_eq_callBy, call_eq_callBy, callBy_function_apply _ _ _ _ arity, if_neg allowed]
  show (f.runBy Machine.leave _ args m).1 = _
  rw [Closure.runBy_apply]
  rfl

/-- A call fails because it is refused, or because the body of the function fails. -/
lemma call_eq_error {v : Value} {error : RuntimeError}
    (h : (call limit n v args m).1 = .error (.failed error)) :
    Raises limit ⟨.call v args, i, m, n⟩ error ∨
      ∃ next, Starts limit ⟨.call v args, i, m, n⟩ next ∧
        (next.run limit).1 = .error (.failed error) := by
  by_cases isFunction : ∃ f, v = .function f
  · obtain ⟨f, rfl⟩ := isFunction
    by_cases arity : f.params.length = args.length
    · by_cases exceeded : 0 < limit ∧ limit ≤ m.depth
      · rw [call_refused arity exceeded] at h
        cases h
        exact .inl (.callDepthExceeded arity exceeded.1 exceeded.2)
      · cases n with
        | zero =>
          rw [call_exhausted arity exceeded] at h
          cases h
        | succ n =>
          rw [call_entered arity exceeded, Machine.caught_eq_error_iff, Block.eval_eq] at h
          exact .inr ⟨_, .entered arity exceeded, listed_eq_error_iff.2 h.1⟩
    · rw [call_eq_callBy, callBy_arity_apply _ _ _ _ arity] at h
      cases h
      exact .inl (.arityMismatch arity)
  · have other : ∀ f, v ≠ .function f := fun f eq => isFunction ⟨f, eq⟩
    rw [call_eq_callBy, callBy_other_apply _ _ _ _ _ other] at h
    cases h
    exact .inl (.notAFunction other)

end Calls

namespace Point

variable {limit : Nat} {now next : Point}

/-- A task that fails raises the error itself, or a part of it fails so. -/
lemma raises_or_starts {error : RuntimeError}
    (h : (now.run limit).1 = .error (.failed error)) :
    Raises limit now error ∨
      ∃ next, Starts limit now next ∧ (next.run limit).1 = .error (.failed error) := by
  obtain ⟨task, i, m, n⟩ := now
  -- A task fails with the first of its parts that fails, else by itself after the last one.
  cases task with
  | expr e =>
    have h := listed_eq_error_iff.1 h
    cases e with
    | literal value _ =>
      rw [Expr.eval] at h
      cases h
    | identifier x =>
      rw [Expr.eval, Eval.lookup_apply] at h
      split at h
      · cases h
      · rename_i none
        cases h
        exact .inl (.unknown none)
    | unary op e _ =>
      rw [Expr.eval] at h
      rcases bind_eq_error h with inner | ⟨v, m', ok, refused⟩
      · exact .inr ⟨_, .part .operand, listed_eq_error_iff.2 inner⟩
      · exact .inl (.prefixOp ok (ofExcept_eq_error refused))
    | binary op a b _ =>
      rw [Expr.eval] at h
      rcases bind_eq_error h with inner | ⟨v, m', ok, rest⟩
      · exact .inr ⟨_, .part .left, listed_eq_error_iff.2 inner⟩
      · rcases bind_eq_error rest with inner | ⟨v', m'', ok', refused⟩
        · exact .inr ⟨_, .part (.right ok), listed_eq_error_iff.2 inner⟩
        · exact .inl (.infixOp ok ok' (ofExcept_eq_error refused))
    | conditional e k alternative _ =>
      cases alternative with
      | none =>
        rw [Expr.eval] at h
        rcases bind_eq_error h with inner | ⟨v, m', ok, rest⟩
        · exact .inr ⟨_, .part .condition, listed_eq_error_iff.2 inner⟩
        · split at rest
          · rename_i holds
            rw [Block.eval_eq] at rest
            exact .inr ⟨_, .part (.consequence ok holds), listed_eq_error_iff.2 rest⟩
          · cases rest
      | some k' =>
        rw [Expr.eval] at h
        rcases bind_eq_error h with inner | ⟨v, m', ok, rest⟩
        · exact .inr ⟨_, .part .condition, listed_eq_error_iff.2 inner⟩
        · rw [Block.eval_eq, Block.eval_eq] at rest
          split at rest
          · rename_i holds
            exact .inr ⟨_, .part (.consequence ok holds), listed_eq_error_iff.2 rest⟩
          · rename_i fails
            exact .inr ⟨_, .part (.alternative ok (Bool.not_eq_true _ ▸ fails)),
              listed_eq_error_iff.2 rest⟩
    | function params body _ =>
      rw [Expr.eval] at h
      cases h
    | call f args _ =>
      rw [Expr.eval] at h
      rcases bind_eq_error h with inner | ⟨v, m', ok, rest⟩
      · exact .inr ⟨_, .part .callee, listed_eq_error_iff.2 inner⟩
      · rcases bind_eq_error rest with inner | ⟨vs, m'', ok', called⟩
        · exact .inr ⟨_, .part (.arguments ok), inner⟩
        · exact .inr ⟨_, .part (.called ok ok'), listed_eq_error_iff.2 called⟩
  | args es =>
    have h : (Expr.evalList (call limit n) i es m).1 = .error (.failed error) := h
    cases es with
    | nil =>
      rw [Expr.evalList] at h
      cases h
    | cons e es =>
      rw [Expr.evalList] at h
      rcases bind_eq_error h with inner | ⟨v, m', ok, rest⟩
      · exact .inr ⟨_, .part .first, listed_eq_error_iff.2 inner⟩
      · rcases bind_eq_error rest with inner | ⟨_, _, _, done⟩
        · exact .inr ⟨_, .part (.others ok), inner⟩
        · cases done
  | stmt s =>
    have h := listed_eq_error_iff.1 h
    cases s with
    | letStmt x e _ =>
      rw [Stmt.eval] at h
      rcases bind_eq_error h with inner | ⟨_, _, _, done⟩
      · exact .inr ⟨_, .part .bound, listed_eq_error_iff.2 inner⟩
      · cases done
    | returnStmt e _ =>
      rw [Stmt.eval] at h
      rcases bind_eq_error h with inner | ⟨_, _, _, done⟩
      · exact .inr ⟨_, .part .returned, listed_eq_error_iff.2 inner⟩
      · cases done
    | exprStmt e _ =>
      rw [Stmt.eval] at h
      exact .inr ⟨_, .part .value, listed_eq_error_iff.2 h⟩
  | body last ss =>
    have h := listed_eq_error_iff.1 h
    cases ss with
    | nil =>
      rw [Stmt.evalList] at h
      cases h
    | cons s ss =>
      rw [Stmt.evalList] at h
      rcases bind_eq_error h with inner | ⟨v, m', ok, rest⟩
      · exact .inr ⟨_, .part .statement, listed_eq_error_iff.2 inner⟩
      · exact .inr ⟨_, .part (.following ok), listed_eq_error_iff.2 rest⟩
  | call v args => exact call_eq_error (listed_eq_error_iff.1 h)

end Point

/-- What stops the evaluation of a part stops the whole evaluation, unless it is a `return`. -/
lemma Starts.stops {limit : Nat} {now next : Point} {s : Stop} (h : Starts limit now next)
    (noReturn : ∀ v, s ≠ .returned v) (stopped : (next.run limit).1 = .error s) :
    (now.run limit).1 = .error s := by
  cases h with
  | part part => exact part.stops stopped
  | entered arity allowed =>
    -- The end of a call catches a `return` and nothing else.
    have body := listed_eq_error_iff.1 stopped
    refine listed_eq_error_iff.2 ((call_entered arity allowed).trans ?_)
    rw [Machine.caught_eq_error_iff, Block.eval_eq]
    exact ⟨body, noReturn⟩

/-- An evaluation is not made up of others without end: a call takes fuel. -/
lemma Starts.wellFounded (limit : Nat) : WellFounded fun next now => Starts limit now next := by
  refine Subrelation.wf ?_ (InvImage.wf (fun now : Point => (now.fuel, now.task.size))
    (Prod.lex Nat.lt_wfRel Nat.lt_wfRel).wf)
  intro next now h
  cases h with
  | part part => exact .right _ part.size_lt
  | entered _ _ => exact .left _ _ (Nat.lt_succ_self _)

/-- An evaluation that fails comes by the point where the error is raised. -/
theorem Point.exists_raises {limit : Nat} {now : Point} {error : RuntimeError}
    (h : (now.run limit).1 = .error (.failed error)) :
    ∃ next, now.ComesBy limit next ∧ Raises limit next error := by
  induction now using (Starts.wellFounded limit).induction with
  | _ now ih =>
    rcases raises_or_starts h with raised | ⟨next, starts, fails⟩
    · exact ⟨now, .refl, raised⟩
    · obtain ⟨last, further, raised⟩ := ih next starts fails
      exact ⟨last, .head starts further, raised⟩

end Monkey
