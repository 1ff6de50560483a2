import Monkey.Evaluation.Node
import Monkey.Proofs.Evaluation.Leaving
import Monkey.Proofs.Evaluation.Task
import Monkey.Proofs.Store.Reach

/-!
# The frame of an evaluation

An evaluation in a scope changes the bindings of that scope at most, among those there were, and a
call changes none. Main statements: `callBy_grows`, for calls however they end, `grows_run` and
`Node.eval_grows`.
-/

namespace Monkey

/-- What an evaluation in a scope may do to the store. -/
def frame (scope : Nat) : Agreement where
  World := Machine
  left := id
  right := id
  le m m' := m.store.Grows (· = scope) m'.store
  scope _ i := i = scope
  value _ _ := True
  stop _ _ := True
  givesUp _ := False
  refl m := .refl _ m.store
  trans := .trans
  scope_mono _ h := h
  value_mono _ h := h
  plain _ _ _ := trivial
  returned _ := trivial
  failed _ _ := trivial

/-- Whatever a computation does, it ends alike beside itself. -/
lemma frame_sim {α : Type} {scope : Nat} {V : Machine → α → Prop} {m : Machine} {x : Eval α}
    (grows : m.store.Grows (· = scope) (x m).2.store) (good : ∀ a, (x m).1 = .ok a → V (x m).2 a) :
    (frame scope).Sim V m x x :=
  Agreement.sim_alone (A := frame scope) (fun _ => rfl) (x m).2 grows rfl good fun _ _ => trivial

/-- What keeps to the frame of a scope touches no other scope. -/
lemma grows_of_frame_sim {α : Type} {scope : Nat} {V : Machine → α → α → Prop} {m : Machine}
    {x : Eval α} (h : (frame scope).coupling.Sim V m x x) :
    m.store.Grows (· = scope) (x m).2.store := by
  rcases h with ⟨_, _, none⟩ | ⟨m', grows, left, _, _⟩
  · exact none.elim
  · cases left
    exact grows

/-- The operations of an evaluation keep to the frame of their scope. -/
lemma frame_lawful (scope : Nat) : (frame scope).Lawful where
  lookup := by
    intro (m : Machine) i name _
    refine frame_sim ?_ fun _ _ => trivial
    rw [Eval.lookup_apply]
    split <;> exact .refl _ _
  assign := by
    intro (m : Machine) i v name hs _
    cases hs
    refine .inr ⟨_, ?_, rfl, rfl, .ok trivial⟩
    exact .set m.store _ name v
  makeClosure := by
    intro (m : Machine) i params body _ _
    refine frame_sim ?_ fun _ _ => trivial
    exact (Store.Grows.countClosure m.store).mono fun _ _ none => none.elim

/-- Binding the parameters of a call changes its new scope only. -/
lemma Machine.bindParams_grows {touched : Nat → Prop} {s s' : Store} {scope : Nat}
    (new : s.size ≤ scope) (params : List Identifier) (args : List Value)
    (grows : s.Grows touched s') : s.Grows touched (bindParams s' scope params args) :=
  bindParams_keeps params (fun _ _ _ _ grows => grows.modify new _) grows

/-- Calls that change no scope there was keep to every frame. -/
lemma frame_calls (scope : Nat) {c : Caller}
    (h : ∀ v args (m : Machine), m.store.Grows Store.untouched (c v args m).2.store) :
    (frame scope).coupling.Calls c c := by
  intro w a b as bs related relatedArgs
  obtain ⟨rfl, _⟩ := related
  obtain ⟨rfl, _⟩ := Agreement.forall₂_iff.1 relatedArgs
  exact frame_sim ((h a as w).mono fun _ _ none => none.elim) fun _ _ => trivial

/-- The body of a function, evaluated in the new scope of a call, changes no scope there was. -/
lemma Closure.body_grows {c : Caller}
    (h : ∀ v args (m : Machine), m.store.Grows Store.untouched (c v args m).2.store) (f : Closure)
    (args : List Value) (m : Machine) :
    m.store.Grows Store.untouched
      (f.body.eval c m.store.size (m.enter f args).2).2.store := by
  have entered : m.store.Grows Store.untouched (m.enter f args).2.store :=
    Machine.bindParams_grows (Nat.le_refl _) f.params args (.push m.store _)
  have body := grows_of_frame_sim
    (f.body.eval_sim (frame_lawful m.store.size).coupling (frame_calls m.store.size h)
      (w := (m.enter f args).2) ⟨rfl, rfl⟩)
  -- The scope of the call is none of those there were, so its changes do not count.
  have run := (entered.mono fun _ _ none => none.elim).trans body
  exact run.mono fun i lt same => Nat.ne_of_lt lt same

/-- A call changes no scope there was. -/
lemma callBy_grows {leave : Leaving} (modest : leave.Modest) (limit fuel : Nat) (v : Value)
    (args : List Value) (m : Machine) :
    m.store.Grows Store.untouched (callBy leave limit fuel v args m).2.store := by
  induction fuel generalizing v args m with
  | zero =>
    rcases callBy_cases leave limit 0 v args m with ⟨s, refused⟩ | ⟨_, _, _, none, _⟩
    · rw [refused]
      exact .refl _ _
    · cases none
  | succ fuel ih =>
    rcases callBy_cases leave limit (fuel + 1) v args m with ⟨s, refused⟩ | ⟨f, fuel', _, same, run⟩
    · rw [refused]
      exact .refl _ _
    · cases same
      have body := f.body_grows ih args m
      rw [run, Closure.runBy_apply]
      rcases modest.store _ m.store.size _ with kept | emptied
      · rw [kept]
        exact body
      · rw [emptied]
        exact body.clear (Nat.le_refl _)

/-- A task changes the scope it is done in at most. -/
lemma grows_run (limit fuel : Nat) (t : Task) (scope : Nat) (m : Machine) :
    m.store.Grows (· = scope) (t.run (call limit fuel) scope m).2.store := by
  have law := (frame_lawful scope).coupling
  have calls := frame_calls scope (callBy_grows Machine.leave_modest limit fuel)
  rw [← call_eq_callBy] at calls
  cases t with
  | expr e => exact grows_of_frame_sim (e.eval_sim law calls (w := m) ⟨rfl, rfl⟩)
  | args es => exact grows_of_frame_sim (Expr.evalList_sim law calls es (w := m) ⟨rfl, rfl⟩)
  | stmt s => exact grows_of_frame_sim (s.eval_sim law calls (w := m) ⟨rfl, rfl⟩)
  | body last ss =>
    exact grows_of_frame_sim (Stmt.evalList_sim law calls ss (w := m) ⟨rfl, rfl⟩ ⟨rfl, trivial⟩)
  | call v args =>
    have grows := callBy_grows Machine.leave_modest limit fuel v args m
    rw [← call_eq_callBy] at grows
    exact grows.mono fun _ _ none => none.elim

/-- An evaluation changes the scope it is in at most. -/
lemma Node.eval_grows (b : Bounds) (node : Node) (scope : Nat) (m : Machine) :
    m.store.Grows (· = scope) (node.eval b scope m).2.store := by
  cases node with
  | program p => exact grows_run b.limit b.fuel (.body .null p.statements) scope m
  | statement s => exact grows_run b.limit b.fuel (.stmt s) scope m
  | block k =>
    have grows := grows_run b.limit b.fuel (.body .null k.statements) scope m
    rwa [Task.run, ← Block.eval_eq] at grows
  | expression e => exact grows_run b.limit b.fuel (.expr e) scope m

end Monkey
