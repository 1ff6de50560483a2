import Monkey.Proofs.Evaluation.Data
import Monkey.Proofs.Store.Forest

/-!
# Links at each moment of an evaluation

An evaluation opens scopes and binds names while it goes on, and functions may be stored in the
scopes they were made in. At each point it comes by, and each time a task ends, the scopes there are
stand where they stood since they were opened; and a call opens its scope inside the one in which
the function was made. Main statements: `Point.ComesBy.precedes` and `Point.ComesBy.opens`.
-/

namespace Monkey

section Links

variable {limit : Nat} {now next : Point}

/-- A task leaves all links there were. -/
lemma precedes_run (limit fuel : Nat) (t : Task) (scope : Nat) (m : Machine) :
    m.store.Precedes (t.run (call limit fuel) scope m).2.store :=
  .of_grows (grows_run limit fuel t scope m)

/-- Binding parameters leaves all links. -/
lemma Machine.bindParams_precedes (s : Store) (scope : Nat) (params : List Identifier)
    (args : List Value) : s.Precedes (bindParams s scope params args) :=
  bindParams_keeps (P := s.Precedes) params (fun s name v _ h => h.trans (.set s scope name v))
    (.refl s)

/-- The beginning of a call leaves all links there were. -/
lemma Machine.enter_precedes (m : Machine) (f : Closure) (args : List Value) :
    m.store.Precedes (m.enter f args).2.store :=
  (Store.Precedes.push _ _).trans (bindParams_precedes _ _ _ _)

/-- From point to point links stay. -/
lemma Starts.precedes (h : Starts limit now next) :
    now.machine.store.Precedes next.machine.store := by
  cases h with
  | @part _ i m n _ _ part =>
    refine part.kept (P := fun m' => m.store.Precedes m'.store) ?_ (.refl _)
    intro t₁ m₁ vs m₂ _ run held
    have further := precedes_run limit n t₁ i m₁
    rw [run] at further
    exact held.trans further
  | entered => exact Machine.enter_precedes _ _ _

/-- What comes after a part of an evaluation changes no link. -/
lemma Starts.ends (h : Starts limit now next) :
    (next.run limit).2.store.Precedes (now.run limit).2.store := by
  cases h with
  | @part _ i _ n t' m' part =>
    refine part.ends (P := fun m₁ => (Point.run limit ⟨t', i, m', n⟩).2.store.Precedes m₁.store)
      ?_ ?_ (.refl _)
    · exact fun t₁ m₁ held => held.trans (precedes_run limit n t₁ i m₁)
    · exact fun name v m₁ held => held.trans (.set m₁.store i name v)
  | @entered f args i m n arity allowed =>
    -- The end of the call at most empties its scope.
    have whole : Point.run limit ⟨.call (.function f) args, i, m, n + 1⟩ =
        Eval.listed (f.runBy Machine.leave (callBy Machine.leave limit n) args m) := by
      rw [Point.run, Task.run, call_eq_callBy, callBy_function_apply _ _ _ _ arity, if_neg allowed]
    rw [whole, Eval.listed_snd, Closure.runBy_apply, ← call_eq_callBy, Block.eval_eq]
    rcases Machine.leave_modest.store _ m.store.size _ with kept | emptied
    · rw [kept]
      exact .refl _
    · rw [emptied]
      exact .clear _ _

/-- Along an evaluation links stay: up to each point that it comes by, during the task there, and
from the end of the task up to the end of the evaluation. -/
theorem Point.ComesBy.precedes (path : now.ComesBy limit next) :
    now.machine.store.Precedes next.machine.store ∧
      next.machine.store.Precedes (next.run limit).2.store ∧
      (next.run limit).2.store.Precedes (now.run limit).2.store := by
  refine ⟨?_, precedes_run limit next.fuel next.task next.scope next.machine, ?_⟩
  · induction path with
    | refl => exact .refl _
    | tail _ starts ih => exact ih.trans starts.precedes
  · induction path with
    | refl => exact .refl _
    | tail _ starts ih => exact starts.ends.trans ih

end Links

section Calls

variable {scope : Nat} {m : Machine} {now : Point}

/-- A call opens a scope inside the one that the function was made in. -/
lemma Machine.isWithin_enter (m : Machine) {f : Closure} (inside : f.scope < m.store.size)
    (args : List Value) (a : Nat) :
    (m.enter f args).2.store.isWithin m.store.size a = true ↔
      a = m.store.size ∨ m.store.isWithin f.scope a = true := by
  have new : m.store.size < (m.store.enclosed f.scope).1.size := by
    rw [Store.enclosed, Store.size_push]
    exact Nat.lt_succ_self _
  rw [← Store.isWithin_enclosed inside, ← (bindParams_precedes _ _ f.params args).isWithin new]
  rfl

/-- Each call in an evaluation on a closed store opens a scope that is inside itself and what the
scope of the function is inside of, and no scope that there was is inside the new one. -/
theorem Point.ComesBy.opens {b : Bounds} {node : Node} (closed : m.store.Closed)
    (inside : scope < m.store.size) (path : (node.start scope m b.fuel).ComesBy b.limit now)
    {f : Closure} {args : List Value} (task : now.task = .call (.function f) args) :
    f.scope < now.machine.store.size ∧
      (∀ a, (now.machine.enter f args).2.store.isWithin now.machine.store.size a = true ↔
        a = now.machine.store.size ∨ now.machine.store.isWithin f.scope a = true) ∧
      ∀ i, i < now.machine.store.size →
        (now.machine.enter f args).2.store.isWithin i now.machine.store.size = false := by
  have start : holding.Stands (fun _ => True) ⟨m, closed⟩ (node.start scope m b.fuel) :=
    ⟨⟨m, closed⟩, Nat.le_refl _, rfl, inside, holding_suits _ node⟩
  obtain ⟨w, _, machine, _, suits⟩ := (holding_alone b.limit).comesBy path start
  rw [task] at suits
  have home : f.scope < now.machine.store.size := machine ▸ suits.1 f.scope rfl
  exact ⟨home, now.machine.isWithin_enter home args, fun _ => Store.not_isWithin_of_lt⟩

end Calls

/-- What is handed out for an evaluation holds no function but those in what it came to. -/
lemma Node.home?_of_answer {node : Node} {r : Except Stop Value} {v : Value}
    (given : node.answer r = some v) :
    v.home? = none ∨ ∃ w, (r = .ok w ∨ r = .error (.returned w)) ∧ v.home? = w.home? := by
  obtain (w | e | _) | w := r
  · refine .inr ⟨w, .inr rfl, ?_⟩
    cases node <;> cases given <;> rfl
  · refine .inl ?_
    cases node <;> cases given <;> rfl
  · cases node <;> cases given
  · refine .inr ⟨w, .inl rfl, ?_⟩
    cases node <;> cases given <;> rfl

/-- After an evaluation on a closed store the store holds what the evaluation gives. -/
lemma Node.eval_held (b : Bounds) (node : Node) {scope : Nat} {m : Machine}
    (closed : m.store.Closed) (inside : scope < m.store.size) {v : Value}
    (given : (node.eval b scope m).1 = some v) : (node.eval b scope m).2.store.Holds v := by
  obtain ⟨w', _, machine, value, stop⟩ := (holding_alone b.limit).node b.fuel node
    (w := ⟨m, closed⟩) inside (holding_suits _ node)
  have machine : w'.1 = (node.run (call b.limit b.fuel) scope m).2 := machine
  rw [Node.eval_eq] at given ⊢
  rw [← machine]
  rcases Node.home?_of_answer given with none | ⟨w, run, home⟩
  · exact .of_home_eq_none none
  · have held : w'.1.store.Holds w := by
      rcases run with run | run
      · exact value w run
      · exact stop _ run w rfl
    exact fun j eq => held j (home ▸ eq)

end Monkey
