import Monkey.Proofs.Store.Renaming
import Monkey.Proofs.Syntax.Shape

/-!
# Shapes of values and stores

The values of functions have the code of the functions in them, and so the places it came from. With
the places left out, values are of the same type and are written and compared alike, and a store
answers alike and is changed alike. Main statements: `Store.get?_shape` and `Store.captures_shape`.
-/

namespace Monkey

/-- The function with no node of its code standing anywhere. -/
def Closure.shape (f : Closure) : Closure :=
  { f with params := f.params.map Identifier.shape, body := f.body.shape }

/-- The value with no code in it standing anywhere. -/
def Value.shape : Value → Value
  | .function f => .function f.shape
  | .returned v => .returned v.shape
  | v => v

/-- The scope with no code in it standing anywhere. -/
def Scope.shape (sc : Scope) : Scope := ⟨sc.bindings.map Value.shape, sc.outer⟩

/-- The store with no code in it standing anywhere. -/
def Store.shape : Store → Store
  | ⟨scopes, closures, outer_lt⟩ => ⟨scopes.map Scope.shape, closures, by
    intro i sc o found link
    rw [Array.getElem?_map] at found
    obtain ⟨sc', found', rfl⟩ := Option.map_eq_some_iff.1 found
    exact outer_lt i sc' o found' link⟩

namespace Value

/-- The shape of a value is of its type. -/
@[simp] lemma type_shape (v : Value) : v.shape.type = v.type := by
  cases v <;> rfl

/-- The shape of a value is as true as the value. -/
@[simp] lemma isTruthy_shape (v : Value) : v.shape.isTruthy = v.isTruthy := by
  cases v <;> rfl

/-- Values are compared without regard to places. -/
lemma same_shape (v w : Value) : v.shape.same w.shape = v.same w := by
  induction v generalizing w with
  | returned v ih =>
    cases w with
    | returned w => exact ih w
    | _ => rfl
  | _ => cases w <;> rfl

/-- Operators do not notice places. -/
lemma unnoticed_shape : Unnoticed Value.shape where
  integer _ := rfl
  string _ := rfl
  type := type_shape
  truthy := isTruthy_shape
  same := same_shape

/-- A value is written without regard to places. -/
@[simp] lemma render_shape (v : Value) : v.shape.render = v.render := by
  induction v with
  | function f =>
    simp only [shape, render, Closure.render, Closure.shape, Identifier.renderParams_shape,
      f.body.render_shape]
  | returned v ih => exact ih
  | _ => rfl

end Value

namespace Store

/-- The shape of a store has as many scopes. -/
@[simp] lemma size_shape (s : Store) : s.shape.size = s.size := Array.size_map

/-- The scopes of the shape are the shapes of the scopes. -/
lemma scope?_shape (s : Store) (i : Nat) : s.shape.scope? i = (s.scope? i).map Scope.shape :=
  Array.getElem?_map

/-- Stores are the same if their scopes and their counts of functions are. -/
lemma ext_scope? {s s' : Store} (scopes : ∀ i, s.scope? i = s'.scope? i)
    (closures : s.closures = s'.closures) : s = s' := by
  obtain ⟨array, count, _⟩ := s
  obtain ⟨array', count', _⟩ := s'
  cases closures
  cases Array.ext_getElem? scopes
  rfl

/-- A scope is opened alike. -/
lemma shape_push (s : Store) (outer : Option Nat) :
    (s.push outer).1.shape = (s.shape.push outer).1 := by
  refine ext_scope? (fun i => ?_) rfl
  rw [scope?_shape, scope?_push, scope?_push, size_shape, scope?_shape]
  split <;> rfl

/-- A change of the bindings of a scope that does not depend on code. -/
lemma shape_modify (s : Store) (i : Nat) {f f' : Bindings → Bindings}
    (same : ∀ b, (f b).map Value.shape = f' (b.map Value.shape)) :
    (s.modify i f).shape = s.shape.modify i f' := by
  refine ext_scope? (fun j => ?_) rfl
  rw [scope?_shape, scope?_modify, scope?_modify, scope?_shape]
  split
  · cases s.scope? j with
    | none => rfl
    | some sc => exact congrArg (fun b => some (Scope.mk b sc.outer)) (same sc.bindings)
  · rfl

/-- A value is bound alike. -/
lemma shape_set (s : Store) (i : Nat) (name : String) (v : Value) :
    (s.set i name v).shape = s.shape.set i name v.shape :=
  s.shape_modify i fun b => b.map_insert name v

/-- A scope is emptied alike. -/
lemma shape_clear (s : Store) (i : Nat) : (s.clear i).shape = s.shape.clear i :=
  s.shape_modify i fun _ => rfl

/-- A look-up finds the same. -/
lemma get?_shape (s : Store) (i : Nat) (name : String) :
    s.shape.get? i name = (s.get? i name).map Value.shape := by
  induction i using Nat.strongRecOn with
  | ind i ih =>
    rw [get?_eq, get?_eq, scope?_shape]
    cases found : s.scope? i with
    | none => rfl
    | some sc =>
      simp only [Option.map_some, Option.bind_some, Scope.shape, Bindings.get?_map]
      cases sc.bindings.get? name with
      | some v => rfl
      | none =>
        cases link : sc.outer with
        | none => rfl
        | some o => exact ih o (s.outer_lt i sc o found link)

/-- Scopes are inside each other alike. -/
lemma isWithin_shape (s : Store) (i a : Nat) : s.shape.isWithin i a = s.isWithin i a := by
  induction i using Nat.strongRecOn with
  | ind i ih =>
    rw [Bool.eq_iff_iff, isWithin_iff, isWithin_iff, scope?_shape]
    refine or_congr_right ?_
    constructor
    · rintro ⟨_, o, found', link, within⟩
      obtain ⟨sc, found, rfl⟩ := Option.map_eq_some_iff.1 found'
      rw [ih o (s.outer_lt i sc o found link)] at within
      exact ⟨sc, o, found, link, within⟩
    · rintro ⟨sc, o, found, link, within⟩
      rw [← ih o (s.outer_lt i sc o found link)] at within
      exact ⟨sc.shape, o, congrArg (Option.map _) found, link, within⟩

/-- Values are captured alike. -/
lemma captures_shape (s : Store) (v : Value) (i : Nat) :
    s.shape.captures v.shape i = s.captures v i := by
  cases v with
  | function f => exact s.isWithin_shape f.scope i
  | _ => rfl

end Store

end Monkey
