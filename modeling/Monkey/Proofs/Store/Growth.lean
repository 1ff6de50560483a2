import Monkey.Proofs.Store.Access

/-!
# Growth of a store

The relation `Grows` between a store and a later one: no scope disappears, no link changes, no name
becomes unbound, and only scopes of a given kind may have other bindings than before. It is the
frame that evaluations keep to; it is reflexive and transitive, and each operation of a store has
its lemma. Main statement: `Grows.clear`, a scope that is newer than the earlier store may even be
emptied.
-/

namespace Monkey.Store

/-- `s'` comes after `s`, and among the scopes of `s` at most the `touched` ones changed. -/
structure Grows (touched : Nat → Prop) (s s' : Store) : Prop where
  size_le : s.size ≤ s'.size
  /-- A scope that is not touched has the bindings it had. -/
  kept : ∀ i, i < s.size → ¬ touched i → s'.scope? i = s.scope? i
  outer : ∀ i, i < s.size → (s'.scope? i).map (·.outer) = (s.scope? i).map (·.outer)
  names : ∀ i n, n ∈ s.names i → n ∈ s'.names i

def untouched : Nat → Prop := fun _ => False

/-- The names of bindings are those that are found. -/
lemma mem_names_iff {b : Bindings} {n : String} : n ∈ b.names ↔ (b.get? n).isSome := by
  rw [Bindings.names, Bindings.get?, List.lookup_isSome_iff]
  simp only [List.mem_map, beq_iff_eq]
  exact exists_congr fun e => and_congr_right fun _ => eq_comm

/-- A scope with a name is there. -/
lemma lt_size_of_mem_names {s : Store} {i : Nat} {n : String} (h : n ∈ s.names i) :
    i < s.size := by
  rw [names_eq] at h
  cases eq : s.scope? i with
  | none => simp [eq] at h
  | some sc => exact lt_size_of_scope? eq

/-- Names depend on the scope only. -/
lemma names_congr {s s' : Store} {i : Nat} (h : s'.scope? i = s.scope? i) :
    s'.names i = s.names i := by
  rw [names_eq, names_eq, h]

namespace Grows

variable {touched touched' : Nat → Prop} {s s' s'' : Store}

/-- A store has grown into itself. -/
lemma refl (touched : Nat → Prop) (s : Store) : s.Grows touched s where
  size_le := Nat.le_refl _
  kept _ _ _ := rfl
  outer _ _ := rfl
  names _ _ h := h

/-- Growing goes on. -/
lemma trans (h : s.Grows touched s') (h' : s'.Grows touched s'') : s.Grows touched s'' where
  size_le := Nat.le_trans h.size_le h'.size_le
  kept i lt not := by
    rw [h'.kept i (Nat.lt_of_lt_of_le lt h.size_le) not]
    exact h.kept i lt not
  outer i lt := by
    rw [h'.outer i (Nat.lt_of_lt_of_le lt h.size_le)]
    exact h.outer i lt
  names i n mem := h'.names i n (h.names i n mem)

/-- What may be touched matters only as far as the earlier store goes. -/
lemma mono (h : s.Grows touched s') (le : ∀ i, i < s.size → touched i → touched' i) :
    s.Grows touched' s' where
  size_le := h.size_le
  kept i lt not := h.kept i lt fun t => not (le i lt t)
  outer := h.outer
  names := h.names

/-- A new scope is growth. -/
lemma push (s : Store) (outer : Option Nat) : s.Grows untouched (s.push outer).1 := by
  have same : ∀ i, i < s.size → (s.push outer).1.scope? i = s.scope? i := by
    intro i lt
    rw [scope?_push, if_neg (Nat.ne_of_lt lt)]
  constructor
  · simp
  · intro i lt _
    exact same i lt
  · intro i lt
    rw [same i lt]
  · intro i n mem
    rwa [names_congr (same i (lt_size_of_mem_names mem))]

/-- A function that is counted is growth. -/
lemma countClosure (s : Store) : s.Grows untouched s.countClosure where
  size_le := Nat.le_refl _
  kept _ _ _ := rfl
  outer _ _ := rfl
  names _ _ h := h

/-- Binding a name touches the scope it is bound in, which keeps its names. -/
lemma set (s : Store) (j : Nat) (name : String) (value : Value) :
    s.Grows (· = j) (s.set j name value) := by
  constructor
  · simp
  · intro i _ ne
    exact scope?_modify_of_ne (Ne.symm ne) _
  · intro i _
    rw [Store.set, scope?_modify]
    split
    · rw [Option.map_map]
      rfl
    · rfl
  · intro i n mem
    rw [names_eq] at mem ⊢
    rw [Store.set, scope?_modify]
    split
    · cases eq : s.scope? i with
      | none => simp [eq] at mem
      | some sc =>
        simp only [eq, Option.map_some, Option.getD_some, mem_names_iff] at mem ⊢
        rw [Bindings.get?_insert]
        split
        · rfl
        · exact mem
    · exact mem

/-- Any change to the bindings of a scope that the earlier store does not have is growth. -/
lemma modify (h : s.Grows touched s') {j : Nat} (new : s.size ≤ j) (f : Bindings → Bindings) :
    s.Grows touched (s'.modify j f) := by
  have same : ∀ i, i < s.size → (s'.modify j f).scope? i = s'.scope? i := by
    intro i lt
    exact scope?_modify_of_ne (Nat.ne_of_gt (Nat.lt_of_lt_of_le lt new)) f
  constructor
  · simpa using h.size_le
  · intro i lt not
    rw [same i lt]
    exact h.kept i lt not
  · intro i lt
    rw [same i lt]
    exact h.outer i lt
  · intro i n mem
    rw [names_congr (same i (lt_size_of_mem_names mem))]
    exact h.names i n mem

/-- A scope that the earlier store does not have may be emptied. -/
lemma clear (h : s.Grows touched s') {j : Nat} (new : s.size ≤ j) :
    s.Grows touched (s'.clear j) :=
  h.modify new _

end Grows

end Monkey.Store
