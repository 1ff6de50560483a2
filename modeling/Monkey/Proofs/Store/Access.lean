import Monkey.Store
import Mathlib.Tactic.Lemma

/-!
# Access to scopes

What each operation of a store does to every place of it, so that later proofs need not open the
operations. An operation on bindings is described by the look-ups it answers, an operation on the
store by the scopes at its places.
-/

namespace Monkey

namespace Bindings

/-- The entry that was put among others is found, and the others as before. -/
lemma lookup_insertEntry (name n : String) (value : Value) (entries : List (String × Value)) :
    (insertEntry name value entries).lookup n =
      if n = name then some value else entries.lookup n := by
  induction entries with
  | nil =>
    by_cases same : n = name
    · simp [insertEntry, same]
    · simp [insertEntry, List.lookup_cons, beq_eq_false_iff_ne.2 same, same]
  | cons e others ih =>
    obtain ⟨m, v⟩ := e
    simp only [insertEntry]
    split
    · by_cases same : n = name
      · simp [same]
      · simp [List.lookup_cons, beq_eq_false_iff_ne.2 same, same]
    · split
      · rename_i eq
        subst eq
        by_cases same : n = name
        · simp [same]
        · simp [List.lookup_cons, beq_eq_false_iff_ne.2 same, same]
      · rename_i different
        simp only [List.lookup_cons, ih]
        by_cases same : n = name
        · subst same
          simp [beq_eq_false_iff_ne.2 different]
        · simp [same]

/-- The value that was bound is found, and the others as before. -/
lemma get?_insert (b : Bindings) (name n : String) (value : Value) :
    (b.insert name value).get? n = if n = name then some value else b.get? n :=
  lookup_insertEntry name n value b.entries

/-- An entry after an insertion is the new one or an old one. -/
lemma mem_insertEntry {name : String} {value : Value} {entries : List (String × Value)}
    {e : String × Value} (h : e ∈ insertEntry name value entries) :
    e = (name, value) ∨ e ∈ entries := by
  induction entries with
  | nil => exact .inl (List.mem_singleton.1 h)
  | cons e' others ih =>
    obtain ⟨m, w⟩ := e'
    simp only [insertEntry] at h
    split at h
    · exact List.mem_cons.1 h
    · split at h
      · rcases List.mem_cons.1 h with h | h
        · exact .inl h
        · exact .inr (List.mem_cons_of_mem _ h)
      · rcases List.mem_cons.1 h with h | h
        · exact .inr (h ▸ List.mem_cons_self)
        · rcases ih h with h | h
          · exact .inl h
          · exact .inr (List.mem_cons_of_mem _ h)

/-- What a look-up finds is an entry. -/
lemma mem_entries_of_get? {b : Bindings} {name : String} {value : Value}
    (h : b.get? name = some value) : (name, value) ∈ b.entries := by
  obtain ⟨before, after, eq, _⟩ := List.lookup_eq_some_iff.1 h
  rw [eq]
  exact List.mem_append_right _ List.mem_cons_self

/-- Where no name is bound nothing is. -/
lemma eq_empty_of_names {b : Bindings} (h : b.names = []) : b = empty := by
  obtain ⟨entries, sorted⟩ := b
  simp only [names, List.map_eq_nil_iff] at h
  subst h
  rfl

end Bindings

namespace Store

/-- How many scopes there are. -/
def size (s : Store) : Nat := s.scopes.size

/-- The scope at a place. -/
def scope? (s : Store) (place : Nat) : Option Scope := s.scopes[place]?

/-- There is a scope at every place before the end, and at no other. -/
lemma scope?_isSome {s : Store} {i : Nat} : (s.scope? i).isSome ↔ i < s.size := by
  simp [scope?, size]

/-- At the place of a scope the store has not ended. -/
lemma lt_size_of_scope? {s : Store} {i : Nat} {sc : Scope} (h : s.scope? i = some sc) :
    i < s.size :=
  scope?_isSome.1 (by simp [h])

/-- A new scope is one more. -/
@[simp] lemma size_push (s : Store) (outer : Option Nat) :
    (s.push outer).1.size = s.size + 1 := by
  simp [size, push]

/-- The scopes after a new one has been opened. -/
lemma scope?_push (s : Store) (outer : Option Nat) (i : Nat) :
    (s.push outer).1.scope? i =
      if i = s.size then some ⟨.empty, outer.filter (· < s.size)⟩ else s.scope? i := by
  simp only [scope?, size, push]
  exact Array.getElem?_push

/-- A change of bindings adds no scope. -/
@[simp] lemma size_modify (s : Store) (j : Nat) (f : Bindings → Bindings) :
    (s.modify j f).size = s.size := by
  simp [size, modify]

/-- The scopes after a change of the bindings of one. -/
lemma scope?_modify (s : Store) (j : Nat) (f : Bindings → Bindings) (i : Nat) :
    (s.modify j f).scope? i =
      if j = i then (s.scope? i).map fun sc => ⟨f sc.bindings, sc.outer⟩ else s.scope? i := by
  simp [scope?, modify, Array.getElem?_modify]

/-- A change of one scope leaves the others. -/
lemma scope?_modify_of_ne {s : Store} {j i : Nat} (h : j ≠ i) (f : Bindings → Bindings) :
    (s.modify j f).scope? i = s.scope? i := by
  rw [scope?_modify, if_neg h]

/-- Binding a value adds no scope. -/
@[simp] lemma size_set (s : Store) (j : Nat) (name : String) (value : Value) :
    (s.set j name value).size = s.size := size_modify s j _

/-- Emptying a scope adds none. -/
@[simp] lemma size_clear (s : Store) (j : Nat) : (s.clear j).size = s.size := size_modify s j _

/-- Counting a function leaves all scopes. -/
@[simp] lemma scope?_countClosure (s : Store) (i : Nat) : s.countClosure.scope? i = s.scope? i :=
  rfl

/-- A look-up, by the scope it starts at. -/
lemma get?_eq (s : Store) (i : Nat) (name : String) :
    s.get? i name = (s.scope? i).bind fun sc =>
      (sc.bindings.get? name).or (sc.outer.bind fun o => s.get? o name) := by
  rw [get?]
  simp only [scope?]
  split
  · rename_i h
    simp [h]
  · rename_i sc h
    rw [h]
    simp only [Option.bind_some]
    split
    · rename_i value found
      simp [found]
    · rename_i missing
      rw [missing]
      split
      · rename_i link
        simp [link]
      · rename_i o link
        simp [link]

/-- Being inside a scope, by the scope one starts at. -/
lemma isWithin_iff (s : Store) (i a : Nat) :
    s.isWithin i a = true ↔
      i = a ∨ ∃ sc o, s.scope? i = some sc ∧ sc.outer = some o ∧ s.isWithin o a = true := by
  rw [isWithin]
  simp only [scope?]
  split
  · rename_i same
    simp [same]
  · rename_i different
    split
    · rename_i h
      simp [h, different]
    · rename_i sc h
      split
      · rename_i link
        simp [h, link, different]
      · rename_i o link
        simp [h, link, different]

/-- The names of a scope are those that it binds. -/
lemma names_eq (s : Store) (i : Nat) :
    s.names i = ((s.scope? i).map fun sc => sc.bindings.names).getD [] := by
  simp only [names, scope?]
  split
  · rename_i h
    simp [h]
  · rename_i sc h
    simp [h]

end Store

end Monkey
