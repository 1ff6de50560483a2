import Monkey.Proofs.Host.Moves
import Monkey.Proofs.Store.Chain

/-!
# Shared scopes

A scope can be seen through many handles and from many scopes inside it. What a step on one handle
changes is said here for every scope that may look on, and a clone of a handle is shown to be as
good as the handle itself in all that follows. Main statement: `lookups_shared`.
-/

namespace Monkey.Host

section Handles

variable {h : Host} {r : Nat → Nat}

/-- The handles are renamed to handles of the same scopes. -/
def Unifies (h : Host) (r : Nat → Nat) : Prop :=
  ∀ i, r i = i ∨ ∃ scope, h.handles[i]? = some scope ∧ h.handles[r i]? = some scope

/-- Unified handles name one scope. -/
lemma Unifies.getElem? (same : h.Unifies r) (i : Nat) : h.handles[r i]? = h.handles[i]? := by
  rcases same i with eq | ⟨scope, here, there⟩
  · rw [eq]
  · rw [here, there]

/-- A step takes unified handles for one another. -/
lemma Unifies.take (same : h.Unifies r) (step : Step) : (h.take step).2.Unifies r := by
  intro i
  obtain ⟨new, eq⟩ := (h.take_moves step).handles
  refine (same i).imp_right fun ⟨scope, here, there⟩ => ⟨scope, ?_, ?_⟩
  · rw [← eq, List.getElem?_append_left (List.getElem?_eq_some_iff.1 here).1, here]
  · rw [← eq, List.getElem?_append_left (List.getElem?_eq_some_iff.1 there).1, there]

/-- A step comes to the same through any handle of the same scope. -/
lemma attempt_rename (same : h.Unifies r) (step : Step) :
    h.attempt (step.rename r) = h.attempt step := by
  cases step <;> simp only [Step.rename, attempt, same.getElem?]

/-- So do any number of steps. -/
lemma takeAll_rename (same : h.Unifies r) (steps : List Step) :
    h.takeAll (steps.map (·.rename r)) = h.takeAll steps := by
  induction steps generalizing h with
  | nil => rfl
  | cons step others ih =>
    have first : h.take (step.rename r) = h.take step := by
      rw [Host.take, Host.take, attempt_rename same]
    -- Handles that name one scope go on to name one after the step.
    rw [List.map_cons, takeAll_cons, takeAll_cons, first, ih (same.take step)]

end Handles

section Clones

variable {h : Host} {j t : Nat}

/-- Binding a value sets it in the scope that is named. -/
lemma take_set (named : h.handles[j]? = some t) {k : Nat} {v : Value}
    (valued : h.values[k]? = some v) (m : String) :
    h.take (.set j m k) = (.done, h.withStore (h.store.set t m v)) := by
  simp [take, attempt, named, valued]

/-- Clearing empties the scope that is named. -/
lemma take_clear (named : h.handles[j]? = some t) :
    h.take (.clear j) = (.done, h.withStore (h.store.clear t)) := by
  simp [take, attempt, named]

/-- Asking for names gives those of the scope that is named. -/
lemma take_names (named : h.handles[j]? = some t) :
    h.take (.names j) = (.names (h.store.names t), h) := by
  simp [take, attempt, named]

/-- A clone of a handle names the same scope. -/
lemma take_clone (named : h.handles[j]? = some t) : h.take (.clone j) = h.addHandle t := by
  simp [take, attempt, named]

/-- Two handles are the same exactly if they name one scope. -/
lemma take_same {k u : Nat} (named : h.handles[j]? = some t) (named' : h.handles[k]? = some u) :
    h.take (.same j k) = (.truth (t == u), h) := by
  simp [take, attempt, named, named']

/-- A new handle names its scope. -/
lemma addHandle_new (h : Host) (t : Nat) :
    (h.addHandle t).2.handles[h.handles.length]? = some t := by
  rw [addHandle, List.getElem?_concat_length]

/-- Old handles name what they named. -/
lemma addHandle_old (named : h.handles[j]? = some t) (u : Nat) :
    (h.addHandle u).2.handles[j]? = some t := by
  rw [addHandle, List.getElem?_append_left (List.getElem?_eq_some_iff.1 named).1, named]

/-- After a handle was cloned it can stand for the clone. -/
lemma unifies_clone (named : h.handles[j]? = some t) :
    (h.addHandle t).2.Unifies fun i => if i = h.handles.length then j else i := by
  intro i
  by_cases cloned : i = h.handles.length
  · subst cloned
    refine .inr ⟨t, h.addHandle_new t, ?_⟩
    simp only [if_true]
    exact addHandle_old named t
  · exact .inl (if_neg cloned)

end Clones

/-- Look-ups through shared scopes. Let a handle of a host name a scope. After a value is bound to a
name in it, a scope finds that value under the name if it sees the changed one, and everything else
that any scope finds is what it was. After the scope is emptied, any scope finds what is bound in
the innermost scope on its chain, other than the emptied one, that binds the name, and nothing if
there is none. In both cases the names of all other scopes stay. A clone of the handle names the
very same scope: whatever steps follow, they give the same answers and end in the same host with
the handle in place of the clone. The names of the scope are those that it binds itself, strictly
in the order of their code points. -/
theorem lookups_shared (h : Host) {j t : Nat} (named : h.handles[j]? = some t) :
    (∀ k v m, h.values[k]? = some v →
      (h.take (.set j m k)).1 = .done ∧
      (∀ e n, (n = m ∧ h.store.Sees e t m →
          (h.take (.set j m k)).2.store.get? e n = some v) ∧
        (¬ (n = m ∧ h.store.Sees e t m) →
          (h.take (.set j m k)).2.store.get? e n = h.store.get? e n)) ∧
      ∀ i, i ≠ t → (h.take (.set j m k)).2.store.names i = h.store.names i) ∧
    ((h.take (.clear j)).1 = .done ∧
      (∀ e n, (∀ v, (h.take (.clear j)).2.store.get? e n = some v ↔
          ∃ i, h.store.Innermost e (fun i => i ≠ t ∧ n ∈ h.store.names i) i ∧
            h.store.own? i n = some v) ∧
        ((h.take (.clear j)).2.store.get? e n = none ↔
          ∀ i ∈ h.store.chain e, i ≠ t → n ∉ h.store.names i)) ∧
      ∀ i, i ≠ t → (h.take (.clear j)).2.store.names i = h.store.names i) ∧
    ((h.take (.clone j)).1 = .handle h.handles.length ∧
      (h.take (.clone j)).2.machine = h.machine ∧
      ((h.take (.clone j)).2.take (.same h.handles.length j)).1 = .truth true ∧
      ∀ steps, (h.take (.clone j)).2.takeAll
          (steps.map (·.rename fun i => if i = h.handles.length then j else i)) =
        (h.take (.clone j)).2.takeAll steps) ∧
    ((h.take (.names j)).1 = .names (h.store.names t) ∧
      (h.store.names t).Pairwise
        (fun a b => a.toList.map Char.toNat < b.toList.map Char.toNat) ∧
      ∀ n, n ∈ h.store.names t ↔ (h.store.own? t n).isSome) := by
  refine ⟨fun k v m valued => ?_, ?_, ?_, ?_⟩
  · rw [take_set named valued]
    refine ⟨rfl, fun e n => ⟨?_, Store.get?_set_of_not_sees⟩, fun i => Store.names_set_of_ne⟩
    rintro ⟨rfl, sees⟩
    exact Store.get?_set_of_sees sees
  · rw [take_clear named]
    exact ⟨rfl, fun e n => ⟨fun v => Store.get?_clear_eq_some_iff, Store.get?_clear_eq_none_iff⟩,
      fun i => Store.names_clear_of_ne⟩
  · rw [take_clone named]
    -- From here on no step tells the new handle from the one it was made of.
    refine ⟨rfl, rfl, ?_, takeAll_rename (unifies_clone named)⟩
    rw [take_same (h.addHandle_new t) (addHandle_old named t), beq_self_eq_true]
  · rw [take_names named]
    exact ⟨rfl, h.store.names_sorted t, fun n => Store.mem_names_iff_own?⟩

/-- Steps after which one name is bound to the first of two values in a scope, and nothing in a
scope inside it. -/
def nesting : List Step :=
  [.literal (.integer 1), .literal (.integer 2), .set 0 "x" 0, .enclosed 0]

/-- The name bound again in the inner scope is shadowed there, not in the outer one; with the inner
scope emptied it is what it was. The inner scope can be emptied through a clone as well. -/
theorem lookups_shared_nesting :
    (start.after nesting).handles[1]? = some 1 ∧
      (start.after nesting).values[1]? = some (.integer 2) ∧
      ((start.after nesting).take (.set 1 "x" 1)).2.store.get? 1 "x" = some (.integer 2) ∧
      ((start.after nesting).take (.set 1 "x" 1)).2.store.get? 0 "x" =
        (start.after nesting).store.get? 0 "x" ∧
      ((start.after nesting).take (.clear 1)).2.store.get? 1 "x" = some (.integer 1) ∧
      ((start.after nesting).take (.clone 1)).2.takeAll [.clear 1] =
        ((start.after nesting).take (.clone 1)).2.takeAll [.clear 2] := by
  have named : (start.after nesting).handles[1]? = some 1 := rfl
  have valued : (start.after nesting).values[1]? = some (.integer 2) := rfl
  have outermost : (start.after nesting).store.chain 0 = [0] := Store.chain_eq _ 0
  have chain : (start.after nesting).store.chain 1 = [1, 0] := by
    rw [Store.chain_eq, ← outermost]
    rfl
  obtain ⟨set, ⟨_, clear, _⟩, ⟨_, _, _, clone⟩, _⟩ := lookups_shared (start.after nesting) named
  obtain ⟨_, looked, _⟩ := set 1 (.integer 2) "x" valued
  refine ⟨named, valued, (looked 1 "x").1 ⟨rfl, [], [0], chain, by simp⟩, ?_, ?_, clone [.clear 2]⟩
  · refine (looked 0 "x").2 fun ⟨_, inner, outer, split, _⟩ => ?_
    have mem : 1 ∈ inner ++ 1 :: outer := List.mem_append_right _ List.mem_cons_self
    rw [← split, outermost] at mem
    exact absurd mem (by decide)
  · refine ((clear 1 "x").1 _).2 ⟨0, ⟨⟨by decide, ?_⟩, [1], [], chain, by decide⟩, ?_⟩
    · decide
    · rfl

end Monkey.Host
