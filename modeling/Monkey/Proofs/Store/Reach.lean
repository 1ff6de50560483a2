import Monkey.Proofs.Store.Growth
import Mathlib.Logic.Relation

/-!
# Reach

From a scope one gets to the scope around it and to the scopes that the functions bound in it were
made in. `Reaches` is what one gets to in any number of such steps. A store is closed if no step
leads out of it; all stores that programs see are closed, and the operations keep that. Main
statement: `Reaches.region`, a set of scopes that no step leaves is not left at all.
-/

namespace Monkey

/-- The scope that a value was made in, if it is a function, also one on its way out of a block. -/
def Value.home? : Value → Option Nat
  | .function f => some f.scope
  | .returned v => v.home?
  | _ => none

namespace Store

/-- One step from a scope to another. -/
inductive Link (s : Store) : Nat → Nat → Prop where
  | outer {i sc o} :
    s.scope? i = some sc →
    sc.outer = some o →
    Link s i o
  | bound {i sc n v j} :
    s.scope? i = some sc →
    (n, v) ∈ sc.bindings.entries →
    v.home? = some j →
    Link s i j

/-- Any number of steps from a scope to another. -/
def Reaches (s : Store) : Nat → Nat → Prop := Relation.ReflTransGen s.Link

/-- What one gets to from a value: the scope it was made in, and on from there. -/
def ReachedFrom (s : Store) (v : Value) (i : Nat) : Prop :=
  ∃ j, v.home? = some j ∧ s.Reaches j i

/-- A value was made in a scope of the store, if in any. -/
def Holds (s : Store) (v : Value) : Prop := ∀ j, v.home? = some j → j < s.size

/-- No step leads out of the store. -/
def Closed (s : Store) : Prop :=
  ∀ i sc n v, s.scope? i = some sc → (n, v) ∈ sc.bindings.entries → s.Holds v

/-- Links are from scopes that are there. -/
lemma Link.lt_size {s : Store} {i j : Nat} (h : s.Link i j) : i < s.size := by
  cases h with
  | outer found _ => exact lt_size_of_scope? found
  | bound found _ _ => exact lt_size_of_scope? found

/-- Steps from a scope depend on the scope alone. -/
lemma Link.congr {s s' : Store} {i j : Nat} (same : s'.scope? i = s.scope? i) (h : s'.Link i j) :
    s.Link i j := by
  cases h with
  | outer found link => exact .outer (same ▸ found) link
  | bound found entry home => exact .bound (same ▸ found) entry home

/-- In a closed store steps lead to scopes that exist. -/
lemma Closed.link {s : Store} (closed : s.Closed) {i j : Nat} (h : s.Link i j) : j < s.size := by
  cases h with
  | outer found link =>
    exact Nat.lt_trans (s.outer_lt _ _ _ found link) (lt_size_of_scope? found)
  | bound found entry home => exact closed _ _ _ _ found entry _ home

/-- A set of scopes that no step leaves is not left. -/
lemma Reaches.region {s : Store} {R : Nat → Prop} (steps : ∀ i j, R i → s.Link i j → R j)
    {i j : Nat} (h : s.Reaches i j) (start : R i) : R j := by
  induction h with
  | refl => exact start
  | tail _ link ih => exact steps _ _ ih link

/-- What a store holds it holds later. -/
lemma Holds.mono {s s' : Store} {v : Value} (h : s.Holds v) (le : s.size ≤ s'.size) : s'.Holds v :=
  fun j home => Nat.lt_of_lt_of_le (h j home) le

/-- A value that was made nowhere is held by any store. -/
lemma Holds.of_home_eq_none {s : Store} {v : Value} (h : v.home? = none) : s.Holds v := by
  intro j home
  rw [h] at home
  cases home

/-- Without scopes nothing leads outside. -/
lemma closed_empty : empty.Closed := by
  intro i sc n v found
  cases found

/-- A new scope leads nowhere else. -/
lemma Closed.push {s : Store} (closed : s.Closed) (outer : Option Nat) :
    (s.push outer).1.Closed := by
  intro i sc n v found entry
  rw [scope?_push] at found
  split at found
  · cases found
    cases entry
  · exact (closed i sc n v found entry).mono (by simp)

/-- A value that the store holds may be bound. -/
lemma Closed.set {s : Store} (closed : s.Closed) (j : Nat) (name : String) {value : Value}
    (held : s.Holds value) : (s.set j name value).Closed := by
  intro i sc n v found entry
  refine Holds.mono ?_ (Nat.le_of_eq (size_set s j name value).symm)
  rw [Store.set, scope?_modify] at found
  split at found
  · obtain ⟨sc', found', rfl⟩ := Option.map_eq_some_iff.1 found
    rcases Bindings.mem_insertEntry entry with same | old
    · cases same
      exact held
    · exact closed i sc' n v found' old
  · exact closed i sc n v found entry

/-- A scope may be emptied. -/
lemma Closed.clear {s : Store} (closed : s.Closed) (j : Nat) : (s.clear j).Closed := by
  intro i sc n v found entry
  refine Holds.mono ?_ (Nat.le_of_eq (size_clear s j).symm)
  rw [Store.clear, scope?_modify] at found
  split at found
  · obtain ⟨sc', _, rfl⟩ := Option.map_eq_some_iff.1 found
    cases entry
  · exact closed i sc n v found entry

/-- A function may be counted. -/
lemma Closed.countClosure {s : Store} (closed : s.Closed) : s.countClosure.Closed :=
  closed

/-- What a look-up finds is bound in a scope that one gets to by outer links. -/
lemma exists_entry_of_get? {s : Store} {i : Nat} {name : String} {v : Value}
    (h : s.get? i name = some v) :
    ∃ j sc, s.Reaches i j ∧ s.scope? j = some sc ∧ (name, v) ∈ sc.bindings.entries := by
  -- Outer links lead to earlier places, so the induction is on the place.
  induction i using Nat.strongRecOn with
  | ind i ih =>
    rw [get?_eq] at h
    cases found : s.scope? i with
    | none => simp [found] at h
    | some sc =>
      rw [found, Option.bind_some, Option.or_eq_some_iff] at h
      rcases h with here | ⟨_, further⟩
      · exact ⟨i, sc, .refl, found, Bindings.mem_entries_of_get? here⟩
      · obtain ⟨o, link, further⟩ := Option.bind_eq_some_iff.1 further
        obtain ⟨j, sc', path, rest⟩ := ih o (s.outer_lt i sc o found link) further
        exact ⟨j, sc', .head (.outer found link) path, rest⟩

/-- What a look-up finds is held. -/
lemma Closed.get? {s : Store} (closed : s.Closed) {i : Nat} {name : String} {v : Value}
    (h : s.get? i name = some v) : s.Holds v := by
  obtain ⟨j, sc, _, found, entry⟩ := exists_entry_of_get? h
  exact closed j sc name v found entry

/-- Look-ups in two stores agree from where the stores agree on all that one gets to. -/
lemma get?_congr {s s' : Store} {i : Nat} (name : String)
    (same : ∀ j, s.Reaches i j → s'.scope? j = s.scope? j) : s'.get? i name = s.get? i name := by
  induction i using Nat.strongRecOn with
  | ind i ih =>
    rw [get?_eq, get?_eq, same i .refl]
    cases found : s.scope? i with
    | none => rfl
    | some sc =>
      simp only [Option.bind_some]
      cases link : sc.outer with
      | none => rfl
      | some o =>
        rw [Option.bind_some, Option.bind_some, ih o (s.outer_lt i sc o found link)]
        intro j path
        exact same j (.head (.outer found link) path)

/-- Whether a scope stands inside another, in two stores that agree on all that one gets to. -/
lemma isWithin_congr {s s' : Store} {i : Nat} (a : Nat)
    (same : ∀ j, s.Reaches i j → s'.scope? j = s.scope? j) : s'.isWithin i a = s.isWithin i a := by
  induction i using Nat.strongRecOn with
  | ind i ih =>
    have further : ∀ sc o, s.scope? i = some sc → sc.outer = some o →
        s'.isWithin o a = s.isWithin o a := by
      intro sc o found link
      refine ih o (s.outer_lt i sc o found link) fun j path => ?_
      exact same j (.head (.outer found link) path)
    rw [Bool.eq_iff_iff, isWithin_iff, isWithin_iff, same i .refl]
    constructor
    · rintro (eq | ⟨sc, o, found, link, within⟩)
      · exact .inl eq
      · exact .inr ⟨sc, o, found, link, further sc o found link ▸ within⟩
    · rintro (eq | ⟨sc, o, found, link, within⟩)
      · exact .inl eq
      · exact .inr ⟨sc, o, found, link, (further sc o found link).symm ▸ within⟩

end Store

end Monkey
