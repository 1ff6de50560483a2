import Mathlib.Tactic.Lemma
import Monkey.Proofs.Evaluation.Leaving
import Monkey.Proofs.Evaluation.Task
import Monkey.Evaluation.Node

/-!
# The depth of calls

Every evaluation leaves as many calls in progress as it found, whichever way it ends. So a limit on
calls bounds how deep the evaluation of function bodies goes, and fuel for that many calls is
enough: with a limit every evaluation ends. Evaluations of one tree under different bounds differ
only in that one of them gives up; this is `concur_run`, from which it also follows that more fuel
never changes a value. Main statement: `Node.eval_ends`.
-/

namespace Monkey

/-- What evaluations of one tree have in common while so many calls are in progress, the left one of
which may give up in some ways, and the right one never runs out of fuel. -/
def steady (givesUp : Stop → Prop) (depth : Nat) : Agreement where
  World := { m : Machine // m.depth = depth }
  left := Subtype.val
  right := Subtype.val
  le _ _ := True
  scope _ _ := True
  value _ _ := True
  stop _ s := s ≠ .outOfFuel
  givesUp := givesUp
  refl _ := trivial
  trans _ _ := trivial
  scope_mono _ _ := trivial
  value_mono _ _ := trivial
  plain _ _ _ := trivial
  returned _ := nofun
  failed _ _ := nofun

/-- The left evaluation gives up, or both come to the same, which leaves so many calls in progress
and is not for want of fuel. -/
def Concur {α : Type} (givesUp : Stop → Prop) (depth : Nat) (r r' : Except Stop α × Machine) :
    Prop :=
  (∃ s, r.1 = .error s ∧ givesUp s) ∨ r = r' ∧ r.2.depth = depth ∧ r.1 ≠ .error .outOfFuel

/-- Values concur exactly if they do in a row. -/
lemma concur_listed_iff {givesUp : Stop → Prop} {depth : Nat} {r r' : Except Stop Value × Machine} :
    Concur givesUp depth (Eval.listed r) (Eval.listed r') ↔ Concur givesUp depth r r' := by
  simp only [Concur, Eval.listed_eq_error_iff, Eval.listed_inj, ne_eq, Eval.listed_snd]

section Steady

variable {α : Type} {givesUp : Stop → Prop} {depth : Nat} {m : Machine} {x y : Eval α}
  {same : m.depth = depth}

/-- A computation agrees with itself if it leaves the depth as it was. -/
lemma steady_sim (left : (x m).2.depth = depth) (fuel : (x m).1 ≠ .error .outOfFuel) :
    (steady givesUp depth).Sim (fun _ _ => True) ⟨m, same⟩ x x :=
  Agreement.sim_alone (A := steady givesUp depth) (fun _ => rfl) ⟨(x m).2, left⟩ trivial rfl
    (fun _ _ => trivial) fun _ run out => fuel (out ▸ run)

/-- What agreeing comes to on one machine. -/
lemma of_steady_sim {V : (steady givesUp depth).World → α → Prop}
    (h : (steady givesUp depth).Sim V ⟨m, same⟩ x y) : Concur givesUp depth (x m) (y m) := by
  rcases h with up | ⟨⟨m', depth'⟩, _, left, right, outcomes⟩
  · exact .inl up
  · have left : m' = (x m).2 := left
    have right : m' = (y m).2 := right
    have outcomes : Outcomes _ _ (x m).1 (y m).1 := outcomes
    have results : (x m).1 = (y m).1 ∧ (x m).1 ≠ .error .outOfFuel := by
      generalize (x m).1 = r, (y m).1 = r' at outcomes
      cases outcomes with
      | ok related =>
        refine ⟨congrArg Except.ok related.1, fun out => ?_⟩
        cases out
      | error related =>
        refine ⟨congrArg Except.error related.1, fun out => related.2 ?_⟩
        cases out
        rfl
    exact .inr ⟨Prod.ext results.1 (left.symm.trans right), left ▸ depth', results.2⟩

end Steady

/-- The operations of an evaluation leave the depth alone. -/
lemma steady_lawful (givesUp : Stop → Prop) (depth : Nat) : (steady givesUp depth).Lawful where
  lookup := by
    rintro ⟨m, same⟩ i name _
    apply steady_sim
    all_goals rw [Eval.lookup_apply]
    · split <;> exact same
    · intro out
      split at out <;> cases out
  assign := by
    rintro ⟨m, same⟩ i v name _ _
    exact .inr ⟨⟨(Eval.assign i name v m).2, same⟩, trivial, rfl, rfl, .ok trivial⟩
  makeClosure := by
    rintro ⟨m, same⟩ i params body _ _
    apply steady_sim
    · exact same
    · intro out
      cases out

/-- A call is one deeper than its surroundings, and when it ends they are as deep as before. -/
lemma steady_run {givesUp : Stop → Prop} (noReturn : ∀ v, ¬ givesUp (.returned v)) {depth : Nat}
    {c c' : Caller} (calls : (steady givesUp (depth + 1)).coupling.Calls c c')
    (w : (steady givesUp depth).World) (f : Closure) (args : List Value) :
    (steady givesUp depth).Sim (steady givesUp depth).value w (f.runBy Machine.leave c args)
      (f.runBy Machine.leave c' args) := by
  obtain ⟨m, same⟩ := w
  -- The body runs one level deeper, and the level is left however the body ends.
  have entered : (m.enter f args).2.depth = depth + 1 := by
    rw [Machine.enter_eq, same]
  have body := of_steady_sim (f.body.eval_sim (steady_lawful givesUp (depth + 1)).coupling calls
    (w := ⟨(m.enter f args).2, entered⟩) (i := m.store.size) ⟨rfl, trivial⟩)
  rcases body with ⟨s, stopped, up⟩ | ⟨agree, left, fuel⟩
  · refine .inl ⟨s, ?_, up⟩
    show (f.runBy Machine.leave c args m).1 = _
    rw [Closure.runBy_apply, stopped]
    cases s with
    | returned v => exact absurd up (noReturn v)
    | _ => rfl
  · have whole : f.runBy Machine.leave c args m = f.runBy Machine.leave c' args m := by
      rw [Closure.runBy_apply, Closure.runBy_apply, agree]
    refine .congr rfl whole.symm (steady_sim ?_ ?_)
    · rw [Closure.runBy_apply]
      exact congrArg (· - 1) left
    · rw [Closure.runBy_apply]
      generalize (f.body.eval c m.store.size (m.enter f args).2).1 = r at fuel
      intro out
      cases r with
      | ok _ => cases out
      | error s =>
        cases s with
        | outOfFuel => exact fuel rfl
        | _ => cases out

/-- While so many calls are in progress, whatever the first bounds allow, the second ones allow too;
where the first ones refuse a call that the second ones allow, that counts as giving up. -/
structure Bounds.Covers (givesUp : Stop → Prop) (depth : Nat) (b b' : Bounds) : Prop where
  limit : b'.limit = b.limit ∨ 0 < b.limit ∧ givesUp (.failed (.callDepthExceeded b.limit)) ∧
    (b'.limit = 0 ∨ b.limit ≤ b'.limit)
  left : givesUp .outOfFuel ∨ 0 < b.limit ∧ b.limit ≤ b.fuel + depth
  right : b.fuel ≤ b'.fuel ∨ 0 < b.limit ∧ b.limit ≤ b'.fuel + depth

section Covers

open Bounds (Covers)

variable {givesUp : Stop → Prop} {depth limit limit' fuel fuel' : Nat}

/-- More fuel covers less, where to run out of it counts as giving up. -/
lemma Bounds.Covers.of_le (le : fuel ≤ fuel') :
    Covers (· = .outOfFuel) depth ⟨limit, fuel⟩ ⟨limit, fuel'⟩ :=
  ⟨.inl rfl, .inl rfl, .inl le⟩

/-- Bounds that cover others do so inside a call. -/
lemma Bounds.Covers.deeper (h : Covers givesUp depth ⟨limit, fuel + 1⟩ ⟨limit', fuel' + 1⟩) :
    Covers givesUp (depth + 1) ⟨limit, fuel⟩ ⟨limit', fuel'⟩ := by
  obtain ⟨limits, left, right⟩ := h
  simp only at left right
  refine ⟨limits, left.imp_right fun enough => ⟨enough.1, ?_⟩, ?_⟩
  · show limit ≤ fuel + (depth + 1)
    omega
  · show fuel ≤ fuel' ∨ 0 < limit ∧ limit ≤ fuel' + (depth + 1)
    omega

/-- Calls agree if the evaluations of the body do, should it come to that. -/
lemma steady_callBy (h : Covers givesUp depth ⟨limit, fuel⟩ ⟨limit', fuel'⟩)
    {w : (steady givesUp depth).World} {v : Value} {args : List Value}
    (run : ∀ f n n', fuel = n + 1 → fuel' = n' + 1 → v = .function f →
      (steady givesUp depth).Sim (steady givesUp depth).value w
        (f.runBy Machine.leave (callBy Machine.leave limit n) args)
        (f.runBy Machine.leave (callBy Machine.leave limit' n') args)) :
    (steady givesUp depth).Sim (steady givesUp depth).value w
      (callBy Machine.leave limit fuel v args) (callBy Machine.leave limit' fuel' v args) := by
  obtain ⟨m, same⟩ := w
  by_cases isFunction : ∃ f, v = .function f
  · obtain ⟨f, rfl⟩ := isFunction
    by_cases arity : f.params.length = args.length
    · have left := callBy_function_apply Machine.leave limit fuel m arity
      have right := callBy_function_apply Machine.leave limit' fuel' m arity
      by_cases exceeded : 0 < limit ∧ limit ≤ m.depth
      · rw [if_pos exceeded] at left
        -- Refused by the first limit: either the second one is the same, or this is to give up.
        rcases h.limit with sameLimit | ⟨_, up, _⟩
        · simp only at sameLimit
          subst sameLimit
          rw [if_pos exceeded] at right
          exact .stopped left right ⟨rfl, (steady givesUp depth).failed _ _⟩
        · refine .inl ⟨_, ?_, up⟩
          exact congrArg Prod.fst left
      · have allowed : ¬ (0 < limit' ∧ limit' ≤ m.depth) := by
          have limits := h.limit
          simp only at limits
          omega
        rw [if_neg exceeded] at left
        rw [if_neg allowed] at right
        -- The call is made on both sides, unless fuel is out; the bounds leave it to the left only.
        cases fuel with
        | zero =>
          rcases h.left with up | enough
          · refine .inl ⟨_, ?_, up⟩
            exact congrArg Prod.fst left
          · simp only at enough
            omega
        | succ n =>
          cases fuel' with
          | zero =>
            have enough := h.right
            simp only at enough
            omega
          | succ n' =>
            refine .congr ?_ ?_ (run f n n' rfl rfl rfl)
            · exact left
            · exact right
    · exact .stopped (callBy_arity_apply Machine.leave limit fuel m arity)
        (callBy_arity_apply Machine.leave limit' fuel' m arity)
        ⟨rfl, (steady givesUp depth).failed _ _⟩
  · have other : ∀ f, v ≠ .function f := fun f eq => isFunction ⟨f, eq⟩
    exact .stopped (callBy_other_apply Machine.leave limit fuel args m other)
      (callBy_other_apply Machine.leave limit' fuel' args m other)
      ⟨rfl, (steady givesUp depth).failed _ _⟩

/-- Calls under bounds that cover others agree, unless those give up. -/
theorem steady_calls (noReturn : ∀ v, ¬ givesUp (.returned v))
    (h : Covers givesUp depth ⟨limit, fuel⟩ ⟨limit', fuel'⟩) :
    (steady givesUp depth).coupling.Calls (call limit fuel) (call limit' fuel') := by
  rw [call_eq_callBy, call_eq_callBy]
  -- A body is evaluated one call deeper, with one unit of fuel less on either side.
  induction fuel generalizing fuel' depth with
  | zero =>
    intro w v v' args args' related relatedArgs
    obtain ⟨rfl, _⟩ := related
    obtain ⟨rfl, _⟩ := Agreement.forall₂_iff.1 relatedArgs
    refine steady_callBy h fun _ _ _ none _ _ => ?_
    cases none
  | succ fuel ih =>
    intro w v v' args args' related relatedArgs
    obtain ⟨rfl, _⟩ := related
    obtain ⟨rfl, _⟩ := Agreement.forall₂_iff.1 relatedArgs
    refine steady_callBy h fun f n n' eq eq' _ => ?_
    cases eq
    subst eq'
    exact steady_run noReturn (ih h.deeper) w f args

end Covers

section Evaluations

open Bounds (Covers)

variable {givesUp : Stop → Prop} {b b' : Bounds} {m : Machine}

/-- Under bounds that cover others a task comes to the same as under the others, unless it gives
up. -/
theorem concur_run (noReturn : ∀ v, ¬ givesUp (.returned v)) (h : Covers givesUp m.depth b b')
    (task : Task) (scope : Nat) :
    Concur givesUp m.depth (task.run (call b.limit b.fuel) scope m)
      (task.run (call b'.limit b'.fuel) scope m) := by
  have law := (steady_lawful givesUp m.depth).coupling
  have calls := steady_calls noReturn h
  let w : (steady givesUp m.depth).World := ⟨m, rfl⟩
  have start : (steady givesUp m.depth).coupling.scopes w scope scope := ⟨rfl, trivial⟩
  have values (v : Value) : (steady givesUp m.depth).coupling.values w v v := ⟨rfl, trivial⟩
  cases task with
  | expr e => exact concur_listed_iff.2 (of_steady_sim (e.eval_sim law calls start))
  | args es =>
    have sim : (steady givesUp m.depth).Sim (fun _ _ => True) w _ _ :=
      (Expr.evalList_sim law calls es start).mono fun _ _ _ related =>
        ⟨(Agreement.forall₂_iff.1 related).1, trivial⟩
    exact of_steady_sim sim
  | stmt s => exact concur_listed_iff.2 (of_steady_sim (s.eval_sim law calls start))
  | body last ss =>
    exact concur_listed_iff.2
      (of_steady_sim (Stmt.evalList_sim law calls ss start (values last)))
  | call callee args =>
    have related := List.forall₂_same.2 fun v (_ : v ∈ args) => values v
    exact concur_listed_iff.2 (of_steady_sim (calls (values callee) related))

namespace Node

/-- What the evaluation of a node computes, before it is handed out. -/
def run (c : Caller) (scope : Nat) : Node → Eval Value
  | .program p => Stmt.evalList c scope .null p.statements
  | .statement s => s.eval c scope
  | .block k => k.eval c scope
  | .expression e => e.eval c scope

/-- What there is to do for a node. -/
def task : Node → Task
  | .program p => .body .null p.statements
  | .statement s => .stmt s
  | .block k => .body .null k.statements
  | .expression e => .expr e

/-- How what a node comes to is handed out. -/
def answer : Node → Except Stop Value → Option Value
  | .program _ => Eval.finish
  | _ => Eval.handOn

/-- A node is evaluated by what it computes, which is then handed out. -/
lemma eval_eq (b : Bounds) (node : Node) (scope : Nat) (m : Machine) :
    node.eval b scope m = (node.answer (node.run (call b.limit b.fuel) scope m).1,
      (node.run (call b.limit b.fuel) scope m).2) := by
  cases node <;> rfl

/-- The task of a node computes what the node does. -/
lemma run_task (c : Caller) (scope : Nat) (node : Node) (m : Machine) :
    node.task.run c scope m = Eval.listed (node.run c scope m) := by
  cases node with
  | block k =>
    simp only [task, run, Task.run, Block.eval_eq]
  | _ => rfl

/-- A node has no answer exactly if the evaluation ran out of fuel. -/
lemma answer_eq_none_iff (node : Node) {r : Except Stop Value} :
    node.answer r = none ↔ r = .error .outOfFuel := by
  cases node <;> rcases r with (_ | _ | _) | _ <;> simp [answer, Eval.finish, Eval.handOn]

/-- Under bounds that cover others a node comes to the same as under the others, unless it gives
up. -/
lemma run_concur (noReturn : ∀ v, ¬ givesUp (.returned v)) (h : Covers givesUp m.depth b b')
    (node : Node) (scope : Nat) :
    Concur givesUp m.depth (node.run (call b.limit b.fuel) scope m)
      (node.run (call b'.limit b'.fuel) scope m) := by
  have concur := concur_run noReturn h node.task scope
  rwa [run_task, run_task, concur_listed_iff] at concur

/-- With a limit on calls every evaluation ends, in whatever scope of whatever machine: there are a
value and a machine, as deep in calls as before, that all fuel from the calls that are still allowed
gives. -/
theorem eval_ends {limit : Nat} (pos : 0 < limit) (node : Node) (scope : Nat) (m : Machine) :
    ∃ v m', m'.depth = m.depth ∧
      ∀ fuel, limit ≤ fuel + m.depth → node.eval ⟨limit, fuel⟩ scope m = (some v, m') := by
  have enough : limit ≤ limit + m.depth := Nat.le_add_right _ _
  have agree (fuel : Nat) (le : limit ≤ fuel + m.depth) :
      Concur (fun _ => False) m.depth (node.run (call limit limit) scope m)
        (node.run (call limit fuel) scope m) := by
    have covers : Covers (fun _ => False) m.depth ⟨limit, limit⟩ ⟨limit, fuel⟩ :=
      ⟨.inl rfl, .inr ⟨pos, enough⟩, .inr ⟨pos, le⟩⟩
    exact run_concur (fun _ => id) covers node scope
  rcases agree limit enough with ⟨_, _, none⟩ | ⟨_, depth, ends⟩
  · exact none.elim
  · obtain ⟨v, value⟩ := Option.ne_none_iff_exists'.1 fun none =>
      ends (node.answer_eq_none_iff.1 none)
    refine ⟨v, _, depth, fun fuel le => ?_⟩
    rcases agree fuel le with ⟨_, _, none⟩ | ⟨same, _, _⟩
    · exact none.elim
    · rw [eval_eq, ← same, value]

/-- The program `let f = fn() { f() }; f()`. -/
def loop : Node := .program ⟨[
  .letStmt ⟨"f", .nowhere⟩ (.function [] ⟨[.exprStmt (.call (.identifier ⟨"f", .nowhere⟩) []
    .nowhere) .nowhere], .nowhere⟩ .nowhere) .nowhere,
  .exprStmt (.call (.identifier ⟨"f", .nowhere⟩) [] .nowhere) .nowhere]⟩

/-- A function that does nothing but call itself ends with an error. -/
theorem eval_ends_loop : ∃ m', m'.depth = 0 ∧
    ∀ fuel, 3 ≤ fuel → loop.eval ⟨3, fuel⟩ 0 ⟨Store.empty.new.1, 0⟩ =
      (some (.error (.callDepthExceeded 3)), m') := by
  obtain ⟨v, m', depth, ends⟩ := eval_ends (show 0 < 3 by decide) loop 0 ⟨Store.empty.new.1, 0⟩
  have value : (loop.eval ⟨3, 3⟩ 0 ⟨Store.empty.new.1, 0⟩).1 =
      some (.error (.callDepthExceeded 3)) := by
    with_unfolding_all rfl
  rw [ends 3 (Nat.le_refl 3)] at value
  cases value
  exact ⟨m', depth, ends⟩

end Node

end Evaluations

end Monkey
