import Monkey.Value

/-!
# Scopes

A scope has bindings of its own and, unless it is outermost, a link to the scope around it. The
store holds every scope that was ever opened, so a scope is named by its place in the store. A link
always leads to an earlier place, which makes the scopes a forest: following links ends, and a
lookup needs no bound but the place it starts at. The operations change bindings only; a link never
changes.
-/

namespace Monkey

/-- Entries with a name added, or with its value replaced, in the order of names. -/
def insertEntry (name : String) (value : Value) : List (String × Value) → List (String × Value)
  | [] => [(name, value)]
  | (n, v) :: others =>
    if name < n then (name, value) :: (n, v) :: others
    else if name = n then (name, value) :: others
    else (n, v) :: insertEntry name value others

/-- An entry among which another was put is that one, or was there. -/
theorem name_of_mem_insertEntry {name n : String} {value v : Value}
    {entries : List (String × Value)} (h : (n, v) ∈ insertEntry name value entries) :
    n = name ∨ (n, v) ∈ entries := by
  induction entries with
  | nil =>
    simp only [insertEntry, List.mem_singleton, Prod.mk.injEq] at h
    exact .inl h.1
  | cons e others ih =>
    obtain ⟨m, w⟩ := e
    simp only [insertEntry] at h
    split at h
    · simp only [List.mem_cons, Prod.mk.injEq] at h ⊢
      rcases h with h | h
      · exact .inl h.1
      · exact .inr h
    · split at h
      · simp only [List.mem_cons, Prod.mk.injEq] at h ⊢
        rcases h with h | h
        · exact .inl h.1
        · exact .inr (.inr h)
      · simp only [List.mem_cons, Prod.mk.injEq] at h ⊢
        rcases h with h | h
        · exact .inr (.inl h)
        · rcases ih h with h | h
          · exact .inl h
          · exact .inr (.inr h)

/-- Entries stay in the order of their names. -/
theorem pairwise_insertEntry {entries : List (String × Value)} (name : String) (value : Value)
    (h : entries.Pairwise (·.1 < ·.1)) : (insertEntry name value entries).Pairwise (·.1 < ·.1) := by
  induction entries with
  | nil => simp [insertEntry]
  | cons e others ih =>
    obtain ⟨n, v⟩ := e
    obtain ⟨first, rest⟩ := List.pairwise_cons.1 h
    simp only [insertEntry]
    split
    · rename_i before
      refine List.pairwise_cons.2 ⟨fun e he => ?_, h⟩
      rcases List.mem_cons.1 he with rfl | he
      · exact before
      · exact Std.lt_trans before (first e he)
    · split
      · rename_i same
        subst same
        exact List.pairwise_cons.2 ⟨first, rest⟩
      · rename_i notBefore different
        refine List.pairwise_cons.2 ⟨fun e he => ?_, ih rest⟩
        rcases name_of_mem_insertEntry (n := e.1) (v := e.2) he with same | he
        · rw [same]
          exact Std.lt_of_le_of_ne (Std.not_lt.1 notBefore) (Ne.symm different)
        · exact first e he

/-- Values under names, each name once, in the order of names. -/
structure Bindings where
  entries : List (String × Value)
  sorted : entries.Pairwise (·.1 < ·.1)

namespace Bindings

/-- No bindings. -/
def empty : Bindings := ⟨[], .nil⟩

/-- The value under a name. -/
def get? (b : Bindings) (name : String) : Option Value := b.entries.lookup name

/-- The bindings with a value under a name, in place of one that was there. -/
def insert (b : Bindings) (name : String) (value : Value) : Bindings :=
  ⟨insertEntry name value b.entries, pairwise_insertEntry name value b.sorted⟩

/-- The names, in order. -/
def names (b : Bindings) : List String := b.entries.map Prod.fst

end Bindings

/-- Bindings, and the scope around them. -/
structure Scope where
  bindings : Bindings
  outer : Option Nat

/-- All scopes that were opened, and how many functions were made. -/
structure Store where
  scopes : Array Scope
  closures : Nat
  outer_lt : ∀ (i : Nat) (s : Scope) (o : Nat), scopes[i]? = some s → s.outer = some o → o < i

namespace Store

/-- The store without scopes. -/
def empty : Store := ⟨#[], 0, by simp⟩

/-- Opens a scope around which is `outer`, or nothing if that is no scope. -/
def push : Store → (outer : Option Nat) → Store × Nat
  | ⟨scopes, closures, outer_lt⟩, outer =>
    let place := scopes.size
    (⟨scopes.push ⟨.empty, outer.filter (· < place)⟩, closures, by
      intro i scope o h link
      rw [Array.getElem?_push] at h
      split at h
      · rename_i eq
        cases h
        rw [eq]
        exact of_decide_eq_true (Option.filter_eq_some_iff.1 link).2
      · exact outer_lt i scope o h link⟩, place)

/-- Opens an outermost scope. -/
def new (s : Store) : Store × Nat := s.push none

/-- Opens a scope inside another. -/
def enclosed (s : Store) (outer : Nat) : Store × Nat := s.push (some outer)

/-- Changes the bindings of a scope. -/
def modify : Store → (scope : Nat) → (f : Bindings → Bindings) → Store
  | ⟨scopes, closures, outer_lt⟩, scope, f =>
    ⟨scopes.modify scope fun sc => ⟨f sc.bindings, sc.outer⟩, closures, by
      intro i sc o h link
      rw [Array.getElem?_modify] at h
      split at h
      · obtain ⟨sc', h', rfl⟩ := Option.map_eq_some_iff.1 h
        exact outer_lt i sc' o h' link
      · exact outer_lt i sc o h link⟩

/-- Binds a name in a scope, in place of a binding the scope has for it. -/
def set (s : Store) (scope : Nat) (name : String) (value : Value) : Store :=
  s.modify scope (·.insert name value)

/-- Takes all bindings out of a scope. -/
def clear (s : Store) (scope : Nat) : Store := s.modify scope fun _ => .empty

/-- Counts one more function. The count before is its identity. -/
def countClosure : Store → Store
  | ⟨scopes, closures, outer_lt⟩ => ⟨scopes, closures + 1, outer_lt⟩

/-- The value of a name: in the scope itself, else in the nearest scope around it that binds it. -/
def get? (s : Store) (scope : Nat) (name : String) : Option Value :=
  match h : s.scopes[scope]? with
  | none => none
  | some sc =>
    match sc.bindings.get? name with
    | some value => some value
    | none =>
      match link : sc.outer with
      | none => none
      | some outer =>
        have : outer < scope := s.outer_lt scope sc outer h link
        s.get? outer name
termination_by scope

/-- The names that a scope binds itself, in order. -/
def names (s : Store) (scope : Nat) : List String :=
  match s.scopes[scope]? with
  | none => []
  | some sc => sc.bindings.names

/-- Whether there is a scope around this one. -/
def isEnclosed (s : Store) (scope : Nat) : Bool :=
  match s.scopes[scope]? with
  | none => false
  | some sc => sc.outer.isSome

/-- Whether a scope is `ancestor` or stands inside it. -/
def isWithin (s : Store) (scope ancestor : Nat) : Bool :=
  if scope = ancestor then true
  else
    match h : s.scopes[scope]? with
    | none => false
    | some sc =>
      match link : sc.outer with
      | none => false
      | some outer =>
        have : outer < scope := s.outer_lt scope sc outer h link
        s.isWithin outer ancestor
termination_by scope

/-- Whether a value is a function made inside a scope. -/
def captures (s : Store) (value : Value) (scope : Nat) : Bool :=
  match value with
  | .function f => s.isWithin f.scope scope
  | _ => false

end Store

end Monkey
