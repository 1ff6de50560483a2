import Monkey.Proofs.Store.Chain
import Mathlib.Order.WellFounded

/-!
# The forest of scopes

Functions can be stored in the scope they were made in, so scopes lead to each other in circles; the
links from scopes to those around them never do. Following links ends: look-ups are repeated here on
bare scopes, of which nothing says so. Being inside another scope is an order in which the scopes
around one scope stand in a row, and links stay what they are when other scopes are opened. Main
statements: `isForest`, `isWithin_enclosed`, `Scopes.finds_iff` and `Scopes.climbs_iff`.
-/

namespace Monkey

namespace Scopes

/-- The runs of a look-up along the links of bare scopes, with what it finds. A look-up that has no
run does not end. -/
inductive Finds (scopes : Array Scope) (name : String) : Nat → Option Value → Prop where
  | missing {i} :
    scopes[i]? = none →
    Finds scopes name i none
  | bound {i sc v} :
    scopes[i]? = some sc →
    sc.bindings.get? name = some v →
    Finds scopes name i (some v)
  | outermost {i sc} :
    scopes[i]? = some sc →
    sc.bindings.get? name = none →
    sc.outer = none →
    Finds scopes name i none
  | outer {i sc o found} :
    scopes[i]? = some sc →
    sc.bindings.get? name = none →
    sc.outer = some o →
    Finds scopes name o found →
    Finds scopes name i found

/-- The runs of a walk along the links of bare scopes, which tells whether it came by a scope. A
walk that has no run does not end. -/
inductive Climbs (scopes : Array Scope) (ancestor : Nat) : Option Nat → Bool → Prop where
  | outside :
    Climbs scopes ancestor none false
  | here :
    Climbs scopes ancestor (some ancestor) true
  | outer {i within} :
    i ≠ ancestor →
    Climbs scopes ancestor (scopes[i]?.bind (·.outer)) within →
    Climbs scopes ancestor (some i) within

variable {scopes : Array Scope} {i : Nat}

/-- In a scope that is linked to itself a look-up of a name it does not bind never ends. -/
lemma not_finds_knotted {name : String} {b : Bindings} (knot : scopes[i]? = some ⟨b, some i⟩)
    (unbound : b.get? name = none) (found : Option Value) : ¬ Finds scopes name i found := by
  intro run
  -- The induction is on the run, which would have to go through itself.
  induction run with
  | missing here => cases knot.symm.trans here
  | bound here bound =>
    cases knot.symm.trans here
    cases unbound.symm.trans bound
  | outermost here _ outermost =>
    cases knot.symm.trans here
    cases outermost
  | outer here _ link _ ih =>
    cases knot.symm.trans here
    cases link
    exact ih knot

end Scopes

namespace Store

/-- `s'` comes after `s`: all scopes are still there, in the scopes they were in. -/
structure Precedes (s s' : Store) : Prop where
  size_le : s.size ≤ s'.size
  outer : ∀ i, i < s.size → s'.outer? i = s.outer? i

/-- The laws of a forest: being inside is an order, and what is around one scope is in a row. -/
structure IsForest (within : Nat → Nat → Prop) : Prop where
  refl : ∀ i, within i i
  trans : ∀ {i a b}, within i a → within a b → within i b
  antisymm : ∀ {i a}, within i a → within a i → i = a
  comparable : ∀ {i a b}, within i a → within i b → within a b ∨ within b a

variable {s s' s'' : Store} {i a b : Nat}

/-- Following links ends. -/
theorem wellFounded_outer (s : Store) : WellFounded fun o i => s.outer? i = some o :=
  Subrelation.wf outer?_lt Nat.lt_wfRel.wf

section Lookup

variable {name : String} {sc : Scope}

/-- Where there is no scope nothing is found. -/
lemma get?_of_missing (here : s.scope? i = none) : s.get? i name = none := by
  rw [get?_eq, here, Option.bind_none]

/-- What a scope itself binds is found in it. -/
lemma get?_of_bound {v : Value} (here : s.scope? i = some sc)
    (bound : sc.bindings.get? name = some v) : s.get? i name = some v := by
  rw [get?_eq, here, Option.bind_some, bound, Option.some_or]

/-- What a scope does not bind itself is looked for in the scope around it. -/
lemma get?_of_unbound (here : s.scope? i = some sc) (unbound : sc.bindings.get? name = none) :
    s.get? i name = sc.outer.bind (s.get? · name) := by
  rw [get?_eq, here, Option.bind_some, unbound, Option.none_or]

end Lookup

section Within

/-- A scope is inside itself. -/
lemma isWithin_refl (s : Store) (i : Nat) : s.isWithin i i = true :=
  isWithin_iff_outer?.2 (.inl rfl)

/-- What is inside a scope is inside what that is inside of. -/
lemma isWithin_trans (h : s.isWithin i a = true) (h' : s.isWithin a b = true) :
    s.isWithin i b = true := by
  induction i using s.wellFounded_outer.induction with
  | _ i ih =>
    rcases isWithin_iff_outer?.1 h with rfl | ⟨o, link, within⟩
    · exact h'
    · exact isWithin_iff_outer?.2 (.inr ⟨o, link, ih o link within⟩)

/-- A scope that is not the other one is inside it if the scope around it is. -/
lemma isWithin_of_ne (ne : i ≠ a) :
    s.isWithin i a = ((s.outer? i).map (s.isWithin · a)).getD false := by
  rw [Bool.eq_iff_iff, isWithin_iff_outer?, or_iff_right ne]
  cases s.outer? i <;> simp

/-- A scope is not inside later ones. -/
lemma le_of_isWithin (h : s.isWithin i a = true) : a ≤ i := by
  induction i using s.wellFounded_outer.induction with
  | _ i ih =>
    rcases isWithin_iff_outer?.1 h with rfl | ⟨o, link, within⟩
    · exact Nat.le_refl _
    · exact Nat.le_trans (ih o link within) (Nat.le_of_lt (outer?_lt link))

/-- Of two scopes around one, one is inside the other. -/
lemma isWithin_comparable (h : s.isWithin i a = true) (h' : s.isWithin i b = true) :
    s.isWithin a b = true ∨ s.isWithin b a = true := by
  induction i using s.wellFounded_outer.induction with
  | _ i ih =>
    rcases isWithin_iff_outer?.1 h with rfl | ⟨o, link, within⟩
    · exact .inl h'
    · -- There is one way outwards from a scope, so both are met on it from the next scope on.
      rcases isWithin_iff_outer?.1 h' with rfl | ⟨o', link', within'⟩
      · exact .inr h
      · cases link.symm.trans link'
        exact ih o link within within'

/-- Being inside another scope makes the scopes a forest. -/
theorem isForest (s : Store) : IsForest fun i a => s.isWithin i a = true where
  refl := s.isWithin_refl
  trans := isWithin_trans
  antisymm h h' := Nat.le_antisymm (le_of_isWithin h') (le_of_isWithin h)
  comparable := isWithin_comparable

end Within

section Growth

namespace Precedes

/-- A store comes after itself. -/
lemma refl (s : Store) : s.Precedes s := ⟨Nat.le_refl _, fun _ _ => rfl⟩

/-- A store comes after those before the ones that it comes after. -/
lemma trans (h : s.Precedes s') (h' : s'.Precedes s'') : s.Precedes s'' where
  size_le := Nat.le_trans h.size_le h'.size_le
  outer i old := (h'.outer i (Nat.lt_of_lt_of_le old h.size_le)).trans (h.outer i old)

/-- What keeps to a frame changes no link. -/
lemma of_grows {touched : Nat → Prop} (grows : s.Grows touched s') : s.Precedes s' where
  size_le := grows.size_le
  outer i old := by
    have same := congrArg (·.bind id) (grows.outer i old)
    simpa only [Option.bind_map, Function.id_comp, outer?] using same

/-- Changed bindings leave all links. -/
lemma modify (s : Store) (t : Nat) (f : Bindings → Bindings) : s.Precedes (s.modify t f) where
  size_le := Nat.le_of_eq (size_modify s t f).symm
  outer i _ := outer?_modify s t f i

/-- Binding a value leaves all links. -/
lemma set (s : Store) (t : Nat) (name : String) (v : Value) : s.Precedes (s.set t name v) :=
  modify s t _

/-- Emptying a scope leaves all links. -/
lemma clear (s : Store) (t : Nat) : s.Precedes (s.clear t) := modify s t _

/-- A new scope leaves all links there were. -/
lemma push (s : Store) (outer : Option Nat) : s.Precedes (s.push outer).1 :=
  of_grows (Grows.push s outer)

/-- What a scope is inside of does not depend on what comes later. -/
lemma isWithin (h : s.Precedes s') (old : i < s.size) (a : Nat) :
    s'.isWithin i a = s.isWithin i a := by
  induction i using s.wellFounded_outer.induction with
  | _ i ih =>
    rw [Bool.eq_iff_iff, isWithin_iff_outer?, isWithin_iff_outer?, h.outer i old]
    refine or_congr_right (exists_congr fun o => and_congr_right fun link => ?_)
    rw [ih o link (Nat.lt_trans (outer?_lt link) old)]

end Precedes

/-- A new scope is linked to the one that it was opened in, if that is there. -/
lemma outer?_push_self (s : Store) (outer : Option Nat) :
    (s.push outer).1.outer? s.size = outer.filter (· < s.size) := by
  rw [outer?, scope?_push, if_pos rfl, Option.bind_some]

/-- A new scope is inside itself and what the scope around it is inside of. -/
theorem isWithin_enclosed (old : i < s.size) (a : Nat) :
    (s.enclosed i).1.isWithin s.size a = true ↔ a = s.size ∨ s.isWithin i a = true := by
  have link : (s.enclosed i).1.outer? s.size = some i := by
    rw [enclosed, outer?_push_self, Option.filter_some, if_pos (decide_eq_true old)]
  have same : (s.enclosed i).1.isWithin i a = s.isWithin i a :=
    (Precedes.push s (some i)).isWithin old a
  rw [isWithin_iff_outer?, link, eq_comm]
  simp only [Option.some.injEq, exists_eq_left', same]

/-- No scope is inside one that is opened later. -/
lemma not_isWithin_of_lt (later : i < a) : s.isWithin i a = false :=
  Bool.eq_false_iff.2 fun within => Nat.not_le.2 later (le_of_isWithin within)

end Growth

end Store

namespace Scopes

/-- Look-ups along the links of a store end, with what the store has. -/
theorem finds_iff {s : Store} {i : Nat} {name : String} {found : Option Value} :
    Finds s.scopes name i found ↔ found = s.get? i name := by
  constructor
  · intro run
    induction run with
    | missing here => exact (Store.get?_of_missing here).symm
    | bound here bound => exact (Store.get?_of_bound here bound).symm
    | outermost here unbound outermost =>
      rw [Store.get?_of_unbound here unbound, outermost, Option.bind_none]
    | outer here unbound link _ ih =>
      rw [Store.get?_of_unbound here unbound, link, Option.bind_some, ih]
  · rintro rfl
    -- Only here do the links of a store matter: they are well-founded, so there is a run.
    induction i using s.wellFounded_outer.induction with
    | _ i ih =>
      cases here : s.scope? i with
      | none =>
        rw [Store.get?_of_missing here]
        exact .missing here
      | some sc =>
        cases bound : sc.bindings.get? name with
        | some v =>
          rw [Store.get?_of_bound here bound]
          exact .bound here bound
        | none =>
          rw [Store.get?_of_unbound here bound]
          cases link : sc.outer with
          | none => exact .outermost here bound link
          | some o =>
            exact .outer here bound link (ih o (Option.bind_eq_some_iff.2 ⟨sc, here, link⟩))

/-- The walk along the links of a store ends, and comes by the scopes that one is inside of. -/
theorem climbs_iff {s : Store} {current : Option Nat} {a : Nat} {within : Bool} :
    Climbs s.scopes a current within ↔
      within = (current.map (s.isWithin · a)).getD false := by
  constructor
  · intro run
    induction run with
    | outside => rfl
    | here => exact (s.isWithin_refl a).symm
    | outer ne _ ih =>
      rw [Option.map_some, Option.getD_some, Store.isWithin_of_ne ne]
      exact ih
  · rintro rfl
    cases current with
    | none => exact .outside
    | some i =>
      induction i using s.wellFounded_outer.induction with
      | _ i ih =>
        rw [Option.map_some, Option.getD_some]
        by_cases here : i = a
        · rw [here, s.isWithin_refl]
          exact .here
        · rw [Store.isWithin_of_ne here]
          refine .outer here ?_
          show Climbs s.scopes a (s.outer? i) _
          cases link : s.outer? i with
          | none => exact .outside
          | some o => exact ih o link

end Scopes

end Monkey
