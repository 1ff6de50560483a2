import Monkey.Proofs.Store.Reach

/-!
# Stores alike on a part

Two stores of one size that have the same scopes at some places, the live ones. No step leads from a
live place to another that is not live, so whatever starts at a live place finds the same in both
stores: look-ups, and whether a scope stands inside another. Main statement: `Alike.forget`, a scope
of the second store may be emptied when the places that get to it are no longer counted as live.
-/

namespace Monkey.Store

/-- `s` and `s'` have the same scopes at the live places, from which no step leads elsewhere. -/
structure Alike (live : Nat → Prop) (s s' : Store) : Prop where
  size : s.size = s'.size
  closures : s.closures = s'.closures
  inside : ∀ i, live i → i < s.size
  same : ∀ i, live i → s'.scope? i = s.scope? i
  steps : ∀ i j, live i → s.Link i j → live j

/-- Steps after a change of the bindings of a scope, if they come from that scope. -/
lemma Link.of_set {s : Store} {i j k : Nat} {name : String} {value : Value}
    (h : (s.set i name value).Link j k) : s.Link j k ∨ j = i ∧ value.home? = some k := by
  by_cases eq : i = j
  · subst eq
    cases h with
    | outer found link =>
      rw [Store.set, scope?_modify, if_pos rfl] at found
      obtain ⟨sc, here, rfl⟩ := Option.map_eq_some_iff.1 found
      exact .inl (.outer here link)
    | bound found entry home =>
      rw [Store.set, scope?_modify, if_pos rfl] at found
      obtain ⟨sc, here, rfl⟩ := Option.map_eq_some_iff.1 found
      rcases Bindings.mem_insertEntry entry with new | old
      · cases new
        exact .inr ⟨rfl, home⟩
      · exact .inl (.bound here old home)
  · exact .inl (h.congr (scope?_modify_of_ne eq _))

/-- Steps after a scope was opened: from the new scope to the one around it at most. -/
lemma Link.of_push {s : Store} {outer : Option Nat} {j k : Nat} (h : (s.push outer).1.Link j k) :
    s.Link j k ∨ j = s.size ∧ outer = some k := by
  by_cases eq : j = s.size
  · subst eq
    cases h with
    | outer found link =>
      rw [scope?_push, if_pos rfl] at found
      cases found
      exact .inr ⟨rfl, (Option.filter_eq_some_iff.1 link).1⟩
    | bound found entry home =>
      rw [scope?_push, if_pos rfl] at found
      cases found
      cases entry
  · refine .inl (h.congr ?_)
    rw [scope?_push, if_neg eq]

/-- An emptied scope has no names. -/
lemma names_clear (s : Store) (i : Nat) : (s.clear i).names i = [] := by
  rw [names_eq, Store.clear, scope?_modify, if_pos rfl]
  cases s.scope? i <;> rfl

/-- Emptying a scope that binds no name changes nothing. -/
lemma scope?_clear_of_names {s : Store} {i : Nat} (h : s.names i = []) (j : Nat) :
    (s.clear i).scope? j = s.scope? j := by
  by_cases eq : i = j
  · subst eq
    rw [Store.clear, scope?_modify, if_pos rfl]
    rw [names_eq] at h
    cases found : s.scope? i with
    | none => rfl
    | some sc =>
      simp only [found, Option.map_some, Option.getD_some] at h
      rw [Option.map_some, ← Bindings.eq_empty_of_names h]
  · exact scope?_modify_of_ne eq _

namespace Alike

variable {live : Nat → Prop} {s s' : Store}

/-- A closed store is like itself at all of its places. -/
lemma refl (closed : s.Closed) : s.Alike (· < s.size) s where
  size := rfl
  closures := rfl
  inside _ h := h
  same _ _ := rfl
  steps _ _ _ link := closed.link link

/-- From a live place one gets to live places only. -/
lemma reaches (h : s.Alike live s') {i j : Nat} (path : s.Reaches i j) (start : live i) : live j :=
  path.region h.steps start

/-- From a live place the same is found in like stores. -/
lemma get? (h : s.Alike live s') {i : Nat} (start : live i) (name : String) :
    s'.get? i name = s.get? i name :=
  get?_congr name fun j path => h.same j (h.reaches path start)

/-- What a look-up from a live place finds was made in a live place. -/
lemma live_of_get? (h : s.Alike live s') {i : Nat} (start : live i) {name : String} {v : Value}
    (found : s.get? i name = some v) {j : Nat} (home : v.home? = some j) : live j := by
  obtain ⟨k, sc, path, here, entry⟩ := exists_entry_of_get? found
  exact h.steps k j (h.reaches path start) (.bound here entry home)

/-- Whether a function made in a live place was made inside a scope is the same in both. -/
lemma captures (h : s.Alike live s') {v : Value} (start : ∀ i, v.home? = some i → live i)
    (a : Nat) : s'.captures v a = s.captures v a := by
  cases v with
  | function f =>
    exact isWithin_congr a fun j path => h.same j (h.reaches path (start f.scope rfl))
  | _ => rfl

/-- A function may be counted in both stores. -/
lemma countClosure (h : s.Alike live s') : s.countClosure.Alike live s'.countClosure where
  size := h.size
  closures := congrArg (· + 1) h.closures
  inside := h.inside
  same := h.same
  steps i j start link := h.steps i j start (link.congr (scope?_countClosure s i))

/-- A value that was made in a live place may be bound in both stores. -/
lemma set (h : s.Alike live s') (i : Nat) (name : String) {v : Value}
    (good : ∀ j, v.home? = some j → live j) :
    (s.set i name v).Alike live (s'.set i name v) where
  size := by rw [size_set, size_set, h.size]
  closures := h.closures
  inside j start := by
    rw [size_set]
    exact h.inside j start
  same j start := by
    rw [Store.set, Store.set, scope?_modify, scope?_modify, h.same j start]
  steps j k start link := by
    rcases link.of_set with old | ⟨_, home⟩
    · exact h.steps j k start old
    · exact good k home

/-- Opening a scope in both stores inside a live one, which makes the new one live. -/
lemma push (h : s.Alike live s') {outer : Nat} (good : live outer) :
    (s.push (some outer)).1.Alike (fun i => live i ∨ i = s.size) (s'.push (some outer)).1 where
  size := by rw [size_push, size_push, h.size]
  closures := h.closures
  inside i start := by
    rw [size_push]
    rcases start with old | rfl
    · exact Nat.lt_succ_of_lt (h.inside i old)
    · exact Nat.lt_succ_self _
  same i start := by
    rw [scope?_push, scope?_push, h.size]
    split
    · rfl
    · rename_i ne
      rcases start with old | new
      · exact h.same i old
      · exact absurd (new.trans h.size) ne
  steps i j start link := by
    rcases link.of_push with old | ⟨_, eq⟩
    · rcases start with start | rfl
      · exact .inl (h.steps i j start old)
      · exact absurd old.lt_size (Nat.lt_irrefl _)
    · -- A new scope binds nothing yet, so its one step is the link to the scope around it.
      cases eq
      exact .inl good

/-- Emptying a scope of the second store keeps the stores alike on the places that do not get to
it, and everywhere if it binds no name. -/
lemma forget (h : s.Alike live s') (scope : Nat) :
    s.Alike (fun i => live i ∧ (s.Reaches i scope → s.names scope = [])) (s'.clear scope) where
  size := by rw [size_clear, h.size]
  closures := h.closures
  inside i start := h.inside i start.1
  same i start := by
    by_cases eq : scope = i
    · subst eq
      have none : s'.names scope = [] := by
        rw [names_congr (h.same scope start.1)]
        exact start.2 .refl
      -- The scope itself stays live only if there is nothing in it to be forgotten.
      rw [scope?_clear_of_names none]
      exact h.same scope start.1
    · rw [Store.clear, scope?_modify_of_ne eq]
      exact h.same i start.1
  steps i j start link :=
    ⟨h.steps i j start.1 link, fun path => start.2 (.head link path)⟩

end Alike

end Monkey.Store
