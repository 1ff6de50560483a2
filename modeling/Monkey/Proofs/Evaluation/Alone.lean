import Monkey.Proofs.Evaluation.Course
import Monkey.Proofs.Evaluation.Depth

/-!
# An evaluation by itself

An agreement may be about a single evaluation, beside itself: it then says what holds at each moment
of the evaluation. If it is kept to by the primitive steps and by calls, and a call begins in a
world that follows, then it holds at every point that an evaluation comes by. Main statements:
`Agreement.LawfulCalls.alone`, `Agreement.Alone.task` and `Agreement.Alone.comesBy`.
-/

namespace Monkey

/-- The names that a task uses. -/
def Task.uses : Task → List String
  | .expr e => e.uses
  | .args es => Expr.usesList es
  | .stmt s => s.uses
  | .body _ ss => Stmt.usesList ss
  | .call _ _ => []

namespace Agreement

variable {A : Agreement} {names : String → Prop} {limit n i : Nat}

/-- An agreement of each evaluation with itself, if functions are made only of code that uses these
names: steps, calls and the beginnings of calls keep to it. -/
structure Alone (A : Agreement) (names : String → Prop) (limit : Nat) : Prop where
  same : ∀ w, A.left w = A.right w
  never : ∀ s, ¬ A.givesUp s
  lawful : A.LawfulOn names
  calls : ∀ fuel, A.coupling.Calls (call limit fuel) (call limit fuel)
  spoken : ∀ {w f}, A.value w (.function f) → ∀ name ∈ f.body.uses, names name
  enters : ∀ {w f args}, A.value w (.function f) → (∀ v ∈ args, A.value w v) →
    ∃ w', A.le w w' ∧ A.left w' = ((A.left w).enter f args).2 ∧ A.scope w' (A.left w).store.size

/-- Evaluations keep to what primitive steps and the beginnings and ends of calls keep to. -/
lemma LawfulCalls.alone (h : A.LawfulCalls names) (law : A.LawfulOn names) (limit : Nat) :
    A.Alone names limit where
  same := h.same
  never := h.never
  lawful := law
  calls fuel := by
    rw [call_eq_callBy]
    exact h.calls law Machine.leave_modest limit fuel
  spoken := h.spoken
  enters := h.enters

/-- The values that a task begins with are good, and it uses only these names. -/
def Suits (A : Agreement) (names : String → Prop) (w : A.World) : Task → Prop
  | .body last ss => A.value w last ∧ ∀ name ∈ Stmt.usesList ss, names name
  | .call callee args => A.value w callee ∧ ∀ v ∈ args, A.value w v
  | t => ∀ name ∈ t.uses, names name

/-- A point is in a world that follows the given one. -/
def Stands (A : Agreement) (names : String → Prop) (w : A.World) (now : Point) : Prop :=
  ∃ w', A.le w w' ∧ A.left w' = now.machine ∧ A.scope w' now.scope ∧ A.Suits names w' now.task

namespace Alone

/-- A task ends in a world that follows, with good values or a good stop. -/
theorem task (h : A.Alone names limit) (n : Nat) (t : Task) {w : A.World} (inside : A.scope w i)
    (suits : A.Suits names w t) :
    ∃ w', A.le w w' ∧ A.left w' = (t.run (call limit n) i (A.left w)).2 ∧
      (∀ vs, (t.run (call limit n) i (A.left w)).1 = .ok vs → ∀ v ∈ vs, A.value w' v) ∧
      ∀ s, (t.run (call limit n) i (A.left w)).1 = .error s → A.stop w' s := by
  have law := h.lawful.coupling
  have calls := h.calls n
  have start : A.coupling.scopes w i i := ⟨rfl, inside⟩
  -- All tasks but lists of arguments come to one value, which is then listed.
  have single {x : Eval Value} (sim : A.Sim A.value w x x) :
      ∃ w', A.le w w' ∧ A.left w' = (Eval.listed (x (A.left w))).2 ∧
        (∀ vs, (Eval.listed (x (A.left w))).1 = .ok vs → ∀ v ∈ vs, A.value w' v) ∧
        ∀ s, (Eval.listed (x (A.left w))).1 = .error s → A.stop w' s := by
    obtain ⟨w', le, machine, ok, stop⟩ := of_sim_alone h.same h.never sim
    refine ⟨w', le, machine, fun vs run => ?_, fun s run => ?_⟩
    · obtain ⟨v, eq, rfl⟩ := Eval.listed_eq_ok run
      exact List.forall_mem_singleton.2 (ok v eq)
    · exact stop s (Eval.listed_eq_error_iff.1 run)
  cases t with
  | expr e => exact single (e.eval_simOn law calls suits start)
  | args es =>
    have sim : A.Sim (fun w vs => ∀ v ∈ vs, A.value w v) w
        (Expr.evalList (call limit n) i es) (Expr.evalList (call limit n) i es) :=
      (Expr.evalList_simOn law calls es suits start).mono fun _ _ _ => forall₂_iff.1
    exact of_sim_alone h.same h.never sim
  | stmt s => exact single (s.eval_simOn law calls suits start)
  | body last ss => exact single (Stmt.evalList_simOn law calls ss suits.2 start ⟨rfl, suits.1⟩)
  | call callee args =>
    exact single (calls ⟨rfl, suits.1⟩ (forall₂_iff.2 ⟨rfl, suits.2⟩))

/-- The evaluation of a node ends in a world that follows, with a good value or a good stop. -/
lemma node (h : A.Alone names limit) (n : Nat) (node : Node) {w : A.World} (inside : A.scope w i)
    (suits : A.Suits names w node.task) :
    ∃ w', A.le w w' ∧ A.left w' = (node.run (call limit n) i (A.left w)).2 ∧
      (∀ v, (node.run (call limit n) i (A.left w)).1 = .ok v → A.value w' v) ∧
      ∀ s, (node.run (call limit n) i (A.left w)).1 = .error s → A.stop w' s := by
  obtain ⟨w', le, machine, values, stop⟩ := h.task n node.task inside suits
  rw [Node.run_task] at machine values stop
  refine ⟨w', le, machine, fun v run => ?_, fun s run => stop s (Eval.listed_eq_error_iff.2 run)⟩
  have listed := congrArg (Except.map fun v => [v]) run
  exact values [v] listed v (List.mem_singleton_self v)

/-- After a task that came to values the values are good. -/
lemma after (h : A.Alone names limit) {w : A.World} {t : Task} {vs : List Value} {m' : Machine}
    (inside : A.scope w i) (suits : A.Suits names w t)
    (run : t.run (call limit n) i (A.left w) = (.ok vs, m')) :
    ∃ w', A.le w w' ∧ A.left w' = m' ∧ ∀ v ∈ vs, A.value w' v := by
  obtain ⟨w', le, machine, values, _⟩ := h.task n t inside suits
  rw [run] at machine values
  exact ⟨w', le, machine, values vs rfl⟩

/-- A part of a task begins with good values, as the task does. -/
lemma part (h : A.Alone names limit) {w : A.World} {t t' : Task} {m' : Machine}
    (part : Part (call limit n) i t (A.left w) t' m') (inside : A.scope w i)
    (suits : A.Suits names w t) : ∃ w', A.le w w' ∧ A.left w' = m' ∧ A.Suits names w' t' := by
  -- What comes before the part came to good values, and the part may begin with one of them.
  have before {t : Task} {m' : Machine} {r : Except Stop Value × Machine} {v : Value}
      (suits : A.Suits names w t) (same : t.run (call limit n) i (A.left w) = Eval.listed r)
      (ok : r = (.ok v, m')) : ∃ w', A.le w w' ∧ A.left w' = m' ∧ A.value w' v := by
    obtain ⟨w', le, machine, values⟩ := h.after inside suits
      (same.trans (Eval.listed_eq_ok_iff.2 ok))
    exact ⟨w', le, machine, values v (List.mem_singleton_self v)⟩
  cases part with
  | operand | bound | returned | value => exact ⟨w, A.refl w, rfl, suits⟩
  | left | callee | first =>
    exact ⟨w, A.refl w, rfl, (List.forall_mem_append.1 suits).1⟩
  | statement => exact ⟨w, A.refl w, rfl, (List.forall_mem_append.1 suits.2).1⟩
  | condition => exact ⟨w, A.refl w, rfl, (Expr.forall_uses_conditional suits).1⟩
  | right ok | arguments ok | others ok =>
    obtain ⟨first, second⟩ := List.forall_mem_append.1 suits
    obtain ⟨w', le, machine, _⟩ := before (t := .expr _) first rfl ok
    exact ⟨w', le, machine, second⟩
  | @consequence _ k _ _ _ _ _ ok _ =>
    obtain ⟨condition, consequence⟩ := Expr.forall_uses_conditional suits
    obtain ⟨w', le, machine, _⟩ := before (t := .expr _) condition rfl ok
    exact ⟨w', le, machine, A.plain w' (v := .null) trivial, k.uses_eq ▸ consequence⟩
  | @alternative _ _ k' _ _ _ _ ok _ =>
    obtain ⟨condition, blocks⟩ := List.forall_mem_append.1 suits
    obtain ⟨w', le, machine, _⟩ := before (t := .expr _) condition rfl ok
    exact ⟨w', le, machine, A.plain w' (v := .null) trivial,
      k'.uses_eq ▸ (List.forall_mem_append.1 blocks).2⟩
  | following ok =>
    obtain ⟨first, others⟩ := List.forall_mem_append.1 suits.2
    obtain ⟨w', le, machine, last⟩ := before (t := .stmt _) first rfl ok
    exact ⟨w', le, machine, last, others⟩
  | called ok ok' =>
    obtain ⟨first, second⟩ := List.forall_mem_append.1 suits
    obtain ⟨w', le, rfl, callee⟩ := before (t := .expr _) first rfl ok
    obtain ⟨w'', le', machine, args⟩ :=
      h.after (t := .args _) (A.scope_mono le inside) second ok'
    exact ⟨w'', A.trans le le', machine, A.value_mono le' callee, args⟩

/-- From a point in a world that follows, an evaluation goes on to such points. -/
lemma starts (h : A.Alone names limit) {w : A.World} {now next : Point}
    (starts : Starts limit now next) (stands : A.Stands names w now) :
    A.Stands names w next := by
  obtain ⟨w', le, machine, inside, suits⟩ := stands
  cases starts with
  | part part =>
    subst machine
    obtain ⟨w'', le', machine', suits'⟩ := h.part part inside suits
    exact ⟨w'', A.trans le le', machine', A.scope_mono le' inside, suits'⟩
  | @entered f _ _ _ _ _ _ =>
    subst machine
    obtain ⟨callee, args⟩ := suits
    obtain ⟨w'', le', machine', inside'⟩ := h.enters callee args
    exact ⟨w'', A.trans le le', machine', inside', A.plain w'' (v := .null) trivial,
      f.body.uses_eq ▸ h.spoken callee⟩

/-- All points that an evaluation comes by are in worlds that follow the one it begins in. -/
theorem comesBy (h : A.Alone names limit) {w : A.World} {now next : Point}
    (path : now.ComesBy limit next) (stands : A.Stands names w now) : A.Stands names w next := by
  induction path with
  | refl => exact stands
  | tail _ starts ih => exact h.starts starts ih

end Alone

end Agreement

end Monkey
