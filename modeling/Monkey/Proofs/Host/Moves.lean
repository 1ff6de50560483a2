import Monkey.Host
import Monkey.Proofs.Store.Reach

/-!
# What a host does in a step

All that a step can do to a host, said once (`Moves`), so that what is said of hosts follows from
what is said of stores, handles and values. Main statement: `take_moves`.
-/

namespace Monkey.Host

/-- The machine after an evaluation is the one that it left. -/
@[simp] lemma addResult_machine (h : Host) (r : Option Value × Machine) :
    (h.addResult r).2.machine = r.2 := by
  obtain ⟨_ | v, m⟩ := r <;> rfl

/-- An evaluation makes no handles. -/
@[simp] lemma addResult_handles (h : Host) (r : Option Value × Machine) :
    (h.addResult r).2.handles = h.handles := by
  obtain ⟨_ | v, m⟩ := r <;> rfl

/-- A step may lead from a host to another one. -/
inductive Moves (h : Host) : Host → Prop where
  | stay :
    Moves h h
  | new :
    Moves h (h.addScope h.store.new).2
  | enclosed {scope} :
    scope ∈ h.handles →
    Moves h (h.addScope (h.store.enclosed scope)).2
  | clone {scope} :
    scope ∈ h.handles →
    Moves h (h.addHandle scope).2
  | home {f} :
    .function f ∈ h.values →
    Moves h (h.addHandle f.scope).2
  | made {v} :
    v.home? = none →
    Moves h (h.addValue v).2
  | returned {v} :
    v ∈ h.values →
    Moves h (h.addValue (.returned v)).2
  | found {scope name v} :
    scope ∈ h.handles →
    h.store.get? scope name = some v →
    Moves h (h.addValue v).2
  | set {scope v} (name : String) :
    scope ∈ h.handles →
    v ∈ h.values →
    Moves h (h.withStore (h.store.set scope name v))
  | clear {scope} :
    scope ∈ h.handles →
    Moves h (h.withStore (h.store.clear scope))
  | eval {scope} (b : Bounds) (node : Node) :
    scope ∈ h.handles →
    Moves h (h.addResult (node.eval b scope h.machine)).2

/-- A step that is taken does one of these things. -/
lemma moves_of_attempt {h h' : Host} {step : Step} {answer : Answer}
    (taken : h.attempt step = some (answer, h')) : h.Moves h' := by
  have handle {k scope : Nat} (named : h.handles[k]? = some scope) : scope ∈ h.handles :=
    List.mem_of_getElem? named
  have value {j : Nat} {v : Value} (named : h.values[j]? = some v) : v ∈ h.values :=
    List.mem_of_getElem? named
  -- One case for each step: a step that names what is not there is not taken.
  cases step with
  | new =>
    cases taken
    exact .new
  | literal l =>
    cases taken
    exact .made (by cases l <;> rfl)
  | null | error =>
    cases taken
    exact .made rfl
  | enclosed k =>
    obtain ⟨scope, named, eq⟩ := Option.map_eq_some_iff.1 taken
    cases eq
    exact .enclosed (handle named)
  | clone k =>
    obtain ⟨scope, named, eq⟩ := Option.map_eq_some_iff.1 taken
    cases eq
    exact .clone (handle named)
  | home j =>
    obtain ⟨v, named, eq⟩ := Option.bind_eq_some_iff.1 taken
    cases v with
    | function f =>
      cases eq
      exact .home (value named)
    | _ => cases eq
  | returned j =>
    obtain ⟨v, named, eq⟩ := Option.map_eq_some_iff.1 taken
    cases eq
    exact .returned (value named)
  | get k name =>
    obtain ⟨scope, named, eq⟩ := Option.map_eq_some_iff.1 taken
    split at eq
    · rename_i found
      cases eq
      exact .found (handle named) found
    · cases eq
      exact .stay
  | set k name j =>
    obtain ⟨scope, named, rest⟩ := Option.bind_eq_some_iff.1 taken
    obtain ⟨v, named', eq⟩ := Option.map_eq_some_iff.1 rest
    cases eq
    exact .set name (handle named) (value named')
  | clear k =>
    obtain ⟨scope, named, eq⟩ := Option.map_eq_some_iff.1 taken
    cases eq
    exact .clear (handle named)
  | names k =>
    obtain ⟨_, _, eq⟩ := Option.map_eq_some_iff.1 taken
    cases eq
    exact .stay
  | same | isWithin | captures =>
    obtain ⟨_, _, rest⟩ := Option.bind_eq_some_iff.1 taken
    obtain ⟨_, _, eq⟩ := Option.map_eq_some_iff.1 rest
    cases eq
    exact .stay
  | eval b node k =>
    obtain ⟨scope, named, eq⟩ := Option.map_eq_some_iff.1 taken
    have moves := Moves.eval (h := h) b node (handle named)
    rwa [eq] at moves

/-- A step does one of these things, or nothing. -/
theorem take_moves (h : Host) (step : Step) : h.Moves (h.take step).2 := by
  rw [take]
  cases taken : h.attempt step with
  | none => exact .stay
  | some r => exact moves_of_attempt taken

/-- Steps are taken one by one. -/
lemma takeAll_cons (h : Host) (step : Step) (steps : List Step) :
    h.takeAll (step :: steps) =
      ((h.take step).1 :: ((h.take step).2.takeAll steps).1, ((h.take step).2.takeAll steps).2) :=
  rfl

/-- Steps may be taken in two goes. -/
lemma after_append (h : Host) (steps later : List Step) :
    h.after (steps ++ later) = (h.after steps).after later := by
  induction steps generalizing h with
  | nil => rfl
  | cons step steps ih => exact ih _

/-- What each step keeps to stays so along any number of steps. -/
lemma after_keeps {P : Host → Prop} (step : ∀ {h h'}, P h → h.Moves h' → P h') {h : Host}
    (start : P h) (steps : List Step) : P (h.after steps) := by
  induction steps generalizing h with
  | nil => exact start
  | cons s steps ih => exact ih (step start (h.take_moves s))

/-- A handle stays a handle of its scope. -/
lemma Moves.handles {h h' : Host} (moves : h.Moves h') : h.handles <+: h'.handles := by
  cases moves with
  | new | enclosed | clone | home => exact List.prefix_append _ _
  | stay | made | returned | found | set | clear => exact List.prefix_refl _
  | eval => exact (addResult_handles h _).symm ▸ List.prefix_refl _

end Monkey.Host
