import Monkey.Proofs.Store.Likeness
import Mathlib.Logic.Basic

/-!
# Chains of scopes

The chain of a scope are the scope itself and the scopes around it, from the inside outwards. A
look-up goes along the chain up to the first scope that binds the name, and a scope is inside those
on its chain. Main statements: `get?_eq_some_iff` and `isWithin_iff_mem_chain`, and
`get?_set_of_sees`, `get?_set_of_not_sees` and `get?_clear_eq_some_iff`, which say for every scope
what it sees of a change of another one.
-/

namespace Monkey.Store

/-- The scope around a scope. -/
def outer? (s : Store) (i : Nat) : Option Nat := (s.scope? i).bind (·.outer)

/-- What a scope itself binds a name to. -/
def own? (s : Store) (i : Nat) (name : String) : Option Value :=
  (s.scope? i).bind (·.bindings.get? name)

/-- A scope and the scopes around it, from the inside outwards. -/
def chain (s : Store) (i : Nat) : List Nat :=
  match h : s.scopes[i]? with
  | none => []
  | some sc =>
    match link : sc.outer with
    | none => [i]
    | some outer =>
      have : outer < i := s.outer_lt i sc outer h link
      i :: s.chain outer
termination_by i

/-- A scope is the innermost one of its kind on the chain of another scope. -/
def Innermost (s : Store) (i : Nat) (P : Nat → Prop) (j : Nat) : Prop :=
  P j ∧ ∃ inner outer, s.chain i = inner ++ j :: outer ∧ ∀ k ∈ inner, ¬ P k

/-- A scope sees another one under a name: it is on its chain, and no scope inside it binds the
name. -/
def Sees (s : Store) (i j : Nat) (name : String) : Prop :=
  ∃ inner outer, s.chain i = inner ++ j :: outer ∧ ∀ k ∈ inner, name ∉ s.names k

variable {s s' : Store} {i j k a b : Nat} {name n : String} {v value : Value}

/-- The scope around a scope comes earlier in the store. -/
lemma outer?_lt (h : s.outer? i = some j) : j < i := by
  obtain ⟨sc, found, link⟩ := Option.bind_eq_some_iff.1 h
  exact s.outer_lt i sc j found link

/-- A scope is inside itself and what the scope around it is inside of. -/
lemma isWithin_iff_outer? :
    s.isWithin i a = true ↔ i = a ∨ ∃ o, s.outer? i = some o ∧ s.isWithin o a = true := by
  rw [isWithin_iff]
  simp only [outer?, Option.bind_eq_some_iff]
  exact or_congr_right ⟨fun ⟨sc, o, found, link, within⟩ => ⟨o, ⟨sc, found, link⟩, within⟩,
    fun ⟨o, ⟨sc, found, link⟩, within⟩ => ⟨sc, o, found, link, within⟩⟩

/-- The chain of a scope is the scope in front of the chain of the one around it. -/
lemma chain_eq (s : Store) (i : Nat) :
    s.chain i = if i < s.size then i :: ((s.outer? i).map s.chain).getD [] else [] := by
  rw [chain]
  split
  · rename_i none
    rw [if_neg]
    rw [← scope?_isSome, scope?, none]
    exact Bool.false_ne_true
  · rename_i sc found
    rw [if_pos (lt_size_of_scope? found)]
    split
    · rename_i link
      simp [outer?, scope?, found, link]
    · rename_i o link
      simp [outer?, scope?, found, link]

/-- A scope has the names that it binds itself. -/
lemma mem_names_iff_own? : name ∈ s.names i ↔ (s.own? i name).isSome := by
  rw [names_eq, own?]
  cases s.scope? i with
  | none => simp
  | some sc => exact mem_names_iff

/-- A name that a scope does not bind itself is not among its names. -/
lemma own?_eq_none_iff : s.own? i name = none ↔ name ∉ s.names i := by
  rw [mem_names_iff_own?, Option.not_isSome_iff_eq_none]

/-- On a chain there are scopes of the store only. -/
lemma lt_size_of_mem_chain (h : j ∈ s.chain i) : j < s.size := by
  induction i using Nat.strongRecOn with
  | ind i ih =>
    rw [chain_eq] at h
    split at h
    · rename_i inside
      rcases List.mem_cons.1 h with rfl | further
      · exact inside
      · cases link : s.outer? i with
        | none => simp [link] at further
        | some o =>
          rw [link] at further
          exact ih o (outer?_lt link) further
    · cases h

/-- A look-up takes the first binding along the chain. -/
lemma get?_eq_findSome? (s : Store) (i : Nat) (name : String) :
    s.get? i name = (s.chain i).findSome? (s.own? · name) := by
  induction i using Nat.strongRecOn with
  | ind i ih =>
    rw [get?_eq, chain_eq]
    cases found : s.scope? i with
    | none =>
      rw [if_neg (by simp [← scope?_isSome, found])]
      rfl
    | some sc =>
      rw [if_pos (lt_size_of_scope? found), List.findSome?_cons]
      simp only [own?, outer?, found, Option.bind_some]
      cases sc.bindings.get? name with
      | some value => rfl
      | none =>
        rw [Option.none_or]
        cases link : sc.outer with
        | none => rfl
        | some o => exact ih o (s.outer_lt i sc o found link)

/-- Each scope of a chain comes earlier in the store than those in front of it. -/
lemma chain_sorted (s : Store) (i : Nat) :
    (s.chain i).Pairwise (· > ·) ∧ ∀ j ∈ s.chain i, j ≤ i := by
  induction i using Nat.strongRecOn with
  | ind i ih =>
    rw [chain_eq]
    split
    · cases link : s.outer? i with
      | none => simp
      | some o =>
        obtain ⟨sorted, le⟩ := ih o (outer?_lt link)
        have lt : ∀ j ∈ s.chain o, j < i :=
          fun j mem => Nat.lt_of_le_of_lt (le j mem) (outer?_lt link)
        refine ⟨List.pairwise_cons.2 ⟨lt, sorted⟩, fun j mem => ?_⟩
        rcases List.mem_cons.1 mem with rfl | mem
        · exact Nat.le_refl _
        · exact Nat.le_of_lt (lt j mem)
    · simp

/-- On the chain of a scope there are the scope itself and what is on the chain around it. -/
lemma mem_chain_iff :
    j ∈ s.chain i ↔ i < s.size ∧ (j = i ∨ ∃ o, s.outer? i = some o ∧ j ∈ s.chain o) := by
  rw [chain_eq]
  split
  · rename_i inside
    cases s.outer? i <;> simp [inside]
  · rename_i outside
    simp [outside]

/-- A scope is inside the scopes on its chain. -/
theorem isWithin_iff_mem_chain (inside : i < s.size) : s.isWithin i a = true ↔ a ∈ s.chain i := by
  induction i using Nat.strongRecOn with
  | ind i ih =>
    rw [isWithin_iff_outer?, mem_chain_iff, and_iff_right inside, eq_comm]
    refine or_congr_right (exists_congr fun o => and_congr_right fun link => ?_)
    exact ih o (outer?_lt link) (Nat.lt_trans (outer?_lt link) inside)

/-- Stores with the same links have the same chains. -/
lemma chain_congr (size : s'.size = s.size) (outer : ∀ j, s'.outer? j = s.outer? j) (i : Nat) :
    s'.chain i = s.chain i := by
  induction i using Nat.strongRecOn with
  | ind i ih =>
    rw [chain_eq, chain_eq, size, outer]
    cases link : s.outer? i with
    | none => rfl
    | some o => rw [Option.map_some, Option.map_some, ih o (outer?_lt link)]

section Lookup

/-- The first value along a chain is the one at the innermost scope that has one. -/
lemma findSome?_chain_eq_some_iff {f : Nat → Option Value} {P : Nat → Prop}
    (none : ∀ k, f k = none ↔ ¬ P k) :
    (s.chain i).findSome? f = some v ↔ ∃ j, s.Innermost i P j ∧ f j = some v := by
  rw [List.findSome?_eq_some_iff]
  constructor
  · rintro ⟨inner, j, outer, split, value, before⟩
    have here : P j := not_not.1 fun not => nomatch ((none j).2 not).symm.trans value
    exact ⟨j, ⟨here, inner, outer, split, fun k mem => (none k).1 (before k mem)⟩, value⟩
  · rintro ⟨j, ⟨_, inner, outer, split, before⟩, value⟩
    exact ⟨inner, j, outer, split, value, fun k mem => (none k).2 (before k mem)⟩

/-- A look-up finds what the innermost scope binds that binds the name. -/
theorem get?_eq_some_iff :
    s.get? i name = some v ↔
      ∃ j, s.Innermost i (fun k => name ∈ s.names k) j ∧ s.own? j name = some v := by
  rw [get?_eq_findSome?]
  exact findSome?_chain_eq_some_iff fun k => own?_eq_none_iff

/-- What is found first along a list depends on what each place gives. -/
lemma findSome?_congr {f g : Nat → Option Value} {l : List Nat} (h : ∀ k ∈ l, f k = g k) :
    l.findSome? f = l.findSome? g := by
  calc
    _ = (l.map f).findSome? id := List.findSome?_map.symm
    _ = (l.map g).findSome? id := by rw [List.map_congr_left h]
    _ = _ := List.findSome?_map

end Lookup

section Changes

variable {t : Nat} {f : Bindings → Bindings}

/-- Bindings may change, links do not. -/
@[simp] lemma outer?_modify (s : Store) (t : Nat) (f : Bindings → Bindings) (i : Nat) :
    (s.modify t f).outer? i = s.outer? i := by
  rw [outer?, outer?, scope?_modify]
  split
  · cases s.scope? i <;> rfl
  · rfl

/-- Bindings come and go, but the chains stay. -/
@[simp] lemma chain_modify (s : Store) (t : Nat) (f : Bindings → Bindings) (i : Nat) :
    (s.modify t f).chain i = s.chain i :=
  chain_congr (size_modify s t f) (outer?_modify s t f) i

/-- A change of one scope is none of another. -/
lemma own?_modify_of_ne (ne : i ≠ t) : (s.modify t f).own? i name = s.own? i name := by
  rw [own?, own?, scope?_modify_of_ne ne.symm]

/-- A change of one scope leaves the names of the others. -/
lemma names_modify_of_ne (ne : i ≠ t) : (s.modify t f).names i = s.names i :=
  names_congr (scope?_modify_of_ne ne.symm f)

/-- Binding a name in one scope leaves the names of the others. -/
lemma names_set_of_ne (ne : i ≠ t) : (s.set t name v).names i = s.names i :=
  names_modify_of_ne ne

/-- Emptying one scope leaves the names of the others. -/
lemma names_clear_of_ne (ne : i ≠ t) : (s.clear t).names i = s.names i :=
  names_modify_of_ne ne

/-- A scope binds the value that it was given under the name, and the others as before. -/
lemma own?_set_self (inside : t < s.size) :
    (s.set t name v).own? t n = if n = name then some v else s.own? t n := by
  obtain ⟨sc, found⟩ := Option.isSome_iff_exists.1 (scope?_isSome.2 inside)
  simp only [own?, set, scope?_modify, if_true, found, Option.map_some, Option.bind_some,
    Bindings.get?_insert]

/-- A change of one name is none of another. -/
lemma own?_set_of_ne (ne : n ≠ name) (i : Nat) : (s.set t name v).own? i n = s.own? i n := by
  by_cases same : i = t
  · subst same
    by_cases inside : i < s.size
    · rw [own?_set_self inside, if_neg ne]
    · have missing : s.scope? i = none := by
        rwa [← Option.not_isSome_iff_eq_none, scope?_isSome]
      simp [own?, set, scope?_modify, missing]
  · exact own?_modify_of_ne same

/-- An emptied scope binds nothing, the others what they did. -/
lemma own?_clear (s : Store) (t i : Nat) (name : String) :
    (s.clear t).own? i name = if i = t then none else s.own? i name := by
  split
  · rename_i same
    rw [same, own?_eq_none_iff, names_clear]
    exact List.not_mem_nil
  · rename_i ne
    exact own?_modify_of_ne ne

/-- Nothing inside a scope on a chain is the scope itself. -/
lemma ne_of_mem_inner {inner outer : List Nat} (split : s.chain i = inner ++ j :: outer)
    (mem : k ∈ inner) : k ≠ j := by
  have sorted := (s.chain_sorted i).1
  rw [split] at sorted
  exact Nat.ne_of_gt ((List.pairwise_append.1 sorted).2.2 k mem j List.mem_cons_self)

/-- What is bound in a scope that another one sees under the name is what the other one finds. -/
theorem get?_set_of_sees (sees : s.Sees i t name) : (s.set t name v).get? i name = some v := by
  obtain ⟨inner, outer, split, before⟩ := sees
  have inside : t < s.size := lt_size_of_mem_chain (i := i) (by simp [split])
  have own : (s.set t name v).own? t name = some v := by rw [own?_set_self inside, if_pos rfl]
  refine get?_eq_some_iff.2 ⟨t, ⟨?_, inner, outer, ?_, fun k mem bound => ?_⟩, own⟩
  · exact mem_names_iff_own?.2 (Option.isSome_iff_exists.2 ⟨v, own⟩)
  · rw [set, chain_modify, split]
  · exact before k mem (names_set_of_ne (ne_of_mem_inner split mem) ▸ bound)

/-- A binding changes nothing for another name, or for a scope that does not see the scope it is
made in under the name. -/
theorem get?_set_of_not_sees (not : ¬ (n = name ∧ s.Sees i t name)) :
    (s.set t name v).get? i n = s.get? i n := by
  rw [get?_eq_findSome?, get?_eq_findSome?, set, chain_modify, ← set]
  by_cases same : n = name
  · subst same
    have own : ∀ k, k ≠ t → (s.set t n v).own? k n = s.own? k n := fun k => own?_modify_of_ne
    by_cases above : t ∈ s.chain i
    · -- Some scope inside binds the name, and so the look-up does not come to the changed one.
      obtain ⟨inner, outer, split⟩ := List.append_of_mem above
      obtain ⟨k, mem, bound⟩ : ∃ k ∈ inner, n ∈ s.names k := by
        refine not_forall_not.1 fun silent => not ⟨rfl, inner, outer, split, fun k mem bound => ?_⟩
        exact silent k ⟨mem, bound⟩
      have hidden : (inner.findSome? (s.own? · n)).isSome :=
        List.findSome?_isSome_iff.2 ⟨k, mem, mem_names_iff_own?.1 bound⟩
      obtain ⟨w, first⟩ := Option.isSome_iff_exists.1 hidden
      have first' : inner.findSome? ((s.set t n v).own? · n) = some w := by
        rw [← first]
        exact findSome?_congr fun k mem => own k (ne_of_mem_inner split mem)
      rw [split, List.findSome?_append, List.findSome?_append, first, first', Option.some_or,
        Option.some_or]
    · refine findSome?_congr fun k mem => own k ?_
      rintro rfl
      exact above mem
  · exact findSome?_congr fun k _ => own?_set_of_ne same k

/-- Behind an emptying there is nothing where it was emptied, or where the name was not bound. -/
lemma own?_clear_eq_none_iff :
    (s.clear t).own? i name = none ↔ ¬ (i ≠ t ∧ name ∈ s.names i) := by
  rw [own?_clear]
  split
  · rename_i same
    simp [same]
  · rename_i ne
    simp [ne, own?_eq_none_iff]

/-- With a scope emptied a look-up finds what the innermost other scope binds. -/
theorem get?_clear_eq_some_iff :
    (s.clear t).get? i name = some v ↔
      ∃ j, s.Innermost i (fun k => k ≠ t ∧ name ∈ s.names k) j ∧ s.own? j name = some v := by
  rw [get?_eq_findSome?, clear, chain_modify, ← clear,
    findSome?_chain_eq_some_iff fun k => own?_clear_eq_none_iff]
  refine exists_congr fun j => and_congr_right fun innermost => ?_
  rw [own?_clear, if_neg innermost.1.1]

/-- With a scope emptied a look-up finds nothing if no other scope on the chain binds the name. -/
theorem get?_clear_eq_none_iff :
    (s.clear t).get? i name = none ↔ ∀ k ∈ s.chain i, k ≠ t → name ∉ s.names k := by
  rw [get?_eq_findSome?, clear, chain_modify, ← clear, List.findSome?_eq_none_iff]
  refine forall₂_congr fun k _ => ?_
  rw [own?_clear_eq_none_iff, not_and]

end Changes

/-- The names of a scope are in the order of their code points, none twice. -/
theorem names_sorted (s : Store) (i : Nat) :
    (s.names i).Pairwise fun a b => a.toList.map Char.toNat < b.toList.map Char.toNat := by
  rw [names_eq]
  cases s.scope? i with
  | none => exact .nil
  | some sc =>
    refine List.pairwise_map.2 (sc.bindings.sorted.imp fun {a b} lt => ?_)
    have lt : a.1.toList < b.1.toList := lt
    exact List.map_lt (fun _ _ h => h) lt

end Monkey.Store
