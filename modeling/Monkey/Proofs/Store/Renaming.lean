import Monkey.Proofs.Store.Reach
import Monkey.Value.Operators

/-!
# Renaming

Scopes are named by their places in the store and functions by the count of those made before, so
what else there is in a store shows in the names. Moving up all names from a place on changes
nothing that can be observed: a store and its renamed copy answer alike, and each operation keeps
them so, also if the copy has further scopes in the gap. Main statements: `Renamed.get?`,
`Renamed.captures` and `Renamed.of_grows`, a store that has grown is a renamed copy of what it was.
-/

namespace Monkey

/-- The places from `first` on are moved up by `by`. -/
def movedUp (first places i : Nat) : Nat := if i < first then i else i + places

/-- Places before the gap stay. -/
lemma movedUp_of_lt {first places i : Nat} (lt : i < first) : movedUp first places i = i :=
  if_pos lt

/-- Places behind the gap move up. -/
lemma movedUp_of_le {first places i : Nat} (le : first ≤ i) :
    movedUp first places i = i + places :=
  if_neg (Nat.not_lt.2 le)

/-- Moving up keeps the order of places. -/
lemma movedUp_lt_iff {first places i j : Nat} :
    movedUp first places i < movedUp first places j ↔ i < j := by
  unfold movedUp
  split <;> split <;> omega

/-- Moving up keeps places apart. -/
lemma movedUp_inj {first places i j : Nat} :
    movedUp first places i = movedUp first places j ↔ i = j := by
  unfold movedUp
  split <;> split <;> omega

/-- From which place on scopes are moved up and how far, and the same for functions. -/
structure Renaming where
  firstScope : Nat
  scopes : Nat
  firstClosure : Nat
  closures : Nat

namespace Renaming

/-- The new name of a scope. -/
def scope (r : Renaming) : Nat → Nat := movedUp r.firstScope r.scopes

/-- The new identity of a function. -/
def identity (r : Renaming) : Nat → Nat := movedUp r.firstClosure r.closures

/-- What becomes of the names of a store when later ones are counted on in a store that has
grown. -/
def grown (s s' : Store) : Renaming :=
  ⟨s.size, s'.size - s.size, s.closures, s'.closures - s.closures⟩

/-- What becomes of the names of a new store when it is put behind another one. -/
def behind (s : Store) : Renaming := ⟨0, s.size, 0, s.closures⟩

/-- New names of scopes are in the order of the old ones. -/
@[simp] lemma scope_lt_scope (r : Renaming) {i j : Nat} : r.scope i < r.scope j ↔ i < j :=
  movedUp_lt_iff

/-- Different scopes keep different names. -/
@[simp] lemma scope_inj (r : Renaming) {i j : Nat} : r.scope i = r.scope j ↔ i = j := movedUp_inj

/-- Different functions keep different identities. -/
@[simp] lemma identity_inj (r : Renaming) {i j : Nat} : r.identity i = r.identity j ↔ i = j :=
  movedUp_inj

end Renaming

/-- The function under its new name. -/
def Closure.rename (r : Renaming) (f : Closure) : Closure :=
  { f with identity := r.identity f.identity, scope := r.scope f.scope }

/-- The value under its new name. -/
def Value.rename (r : Renaming) : Value → Value
  | .function f => .function (f.rename r)
  | .returned v => .returned (v.rename r)
  | v => v

/-- The bindings with each value replaced. -/
def Bindings.map (f : Value → Value) (b : Bindings) : Bindings where
  entries := b.entries.map fun e => (e.1, f e.2)
  sorted := List.pairwise_map.2 b.sorted

/-- The scope under new names. -/
def Scope.rename (r : Renaming) (sc : Scope) : Scope :=
  ⟨sc.bindings.map (·.rename r), sc.outer.map r.scope⟩

/-- A function that was made in a scope of the store, and counted. -/
def Store.Made (s : Store) : Value → Prop
  | .function f => f.identity < s.closures ∧ f.scope < s.size
  | .returned v => s.Made v
  | _ => True

/-- All values that are bound in the store are such. -/
def Store.Binds (s : Store) (P : Value → Prop) : Prop :=
  ∀ i sc n v, s.scope? i = some sc → (n, v) ∈ sc.bindings.entries → P v

/-- The second store is a copy of the first one under new names, which may have further scopes, and
may have counted further functions, in the gap. -/
structure Store.Renamed (r : Renaming) (s s' : Store) : Prop where
  size : s'.size = s.size + r.scopes
  closures : s'.closures = s.closures + r.closures
  firstScope_le : r.firstScope ≤ s.size
  firstClosure_le : r.firstClosure ≤ s.closures
  same : ∀ i, s'.scope? (r.scope i) = (s.scope? i).map (·.rename r)
  made : s.Binds s.Made

variable {r : Renaming}

namespace Value

/-- A renamed value is of the same type. -/
@[simp] lemma type_rename (v : Value) : (v.rename r).type = v.type := by
  cases v <;> rfl

/-- A renamed value is as true as it was. -/
@[simp] lemma isTruthy_rename (v : Value) : (v.rename r).isTruthy = v.isTruthy := by
  cases v <;> rfl

/-- Renamed values are the same exactly if they were. -/
lemma same_rename (v w : Value) : (v.rename r).same (w.rename r) = v.same w := by
  induction v generalizing w with
  | function f =>
    cases w with
    | function g =>
      rw [Bool.eq_iff_iff]
      simp [rename, same, Closure.rename]
    | _ => rfl
  | returned v ih =>
    cases w with
    | returned w => exact ih w
    | _ => rfl
  | _ => cases w <;> rfl

end Value

/-- A change of values that no operator can notice. -/
structure Value.Unnoticed (change : Value → Value) : Prop where
  integer : ∀ n, change (.integer n) = .integer n
  string : ∀ s, change (.string s) = .string s
  type : ∀ v, (change v).type = v.type
  truthy : ∀ v, (change v).isTruthy = v.isTruthy
  same : ∀ v w, (change v).same (change w) = v.same w

/-- Operators do not notice a renaming. -/
lemma Value.unnoticed_rename (r : Renaming) : Unnoticed (Value.rename r) where
  integer _ := rfl
  string _ := rfl
  type := type_rename
  truthy := isTruthy_rename
  same := same_rename

/-- Only integers are negated. -/
lemma PrefixOp.negate_other {v : Value} (other : v.type ≠ .integer) :
    negate.apply v = .error (.unknownPrefixOperator .negate v.type) := by
  cases v with
  | integer => exact absurd rfl other
  | _ => rfl

/-- Operands that are neither two integers nor two strings are compared by their types, and by which
values they are. -/
lemma InfixOp.apply_other (op : InfixOp) {v w : Value}
    (integers : ¬ (v.type = .integer ∧ w.type = .integer))
    (strings : ¬ (v.type = .string ∧ w.type = .string)) :
    op.apply v w =
      if v.type ≠ w.type then .error (.typeMismatch v.type op w.type)
      else
        match op with
        | .eq => .ok (.boolean (v.same w))
        | .ne => .ok (.boolean !v.same w)
        | op => .error (.unknownInfixOperator v.type op w.type) := by
  cases v with
  | integer _ =>
    cases w with
    | integer _ => exact absurd ⟨rfl, rfl⟩ integers
    | _ => rfl
  | string _ =>
    cases w with
    | string _ => exact absurd ⟨rfl, rfl⟩ strings
    | _ => rfl
  | _ => rfl

namespace Value.Unnoticed

variable {change : Value → Value} (h : Unnoticed change)

include h

/-- A prefix operator gives what it gave before a change that operators do not notice. -/
lemma prefixOp (op : PrefixOp) (v : Value) : op.apply (change v) = op.apply v := by
  cases op with
  | not => simp only [PrefixOp.apply, h.truthy]
  | negate =>
    by_cases integer : v.type = .integer
    · obtain ⟨n, rfl⟩ := eq_integer integer
      rw [h.integer]
    · rw [PrefixOp.negate_other integer, PrefixOp.negate_other (by rwa [h.type]),
        h.type]

/-- An infix operator gives what it gave before such a change. -/
lemma infixOp (op : InfixOp) (v w : Value) : op.apply (change v) (change w) = op.apply v w := by
  by_cases integers : v.type = .integer ∧ w.type = .integer
  · obtain ⟨a, rfl⟩ := eq_integer integers.1
    obtain ⟨b, rfl⟩ := eq_integer integers.2
    rw [h.integer, h.integer]
  · by_cases strings : v.type = .string ∧ w.type = .string
    · obtain ⟨a, rfl⟩ := eq_string strings.1
      obtain ⟨b, rfl⟩ := eq_string strings.2
      rw [h.string, h.string]
    · rw [op.apply_other integers strings, op.apply_other (by rwa [h.type, h.type])
        (by rwa [h.type, h.type]), h.type, h.type, h.same]

end Value.Unnoticed

/-- A prefix operator gives of a renamed value what it gave of the value. -/
lemma PrefixOp.apply_rename (op : PrefixOp) (v : Value) : op.apply (v.rename r) = op.apply v :=
  (Value.unnoticed_rename r).prefixOp op v

/-- An infix operator gives of renamed values what it gave of the values. -/
lemma InfixOp.apply_rename (op : InfixOp) (v w : Value) :
    op.apply (v.rename r) (w.rename r) = op.apply v w :=
  (Value.unnoticed_rename r).infixOp op v w

namespace Bindings

variable {f : Value → Value}

/-- Where nothing is bound nothing changes. -/
lemma map_empty : empty.map f = empty := rfl

/-- Entries may be changed before a new one is put among them. -/
lemma map_insertEntry (name : String) (v : Value) (entries : List (String × Value)) :
    (insertEntry name v entries).map (fun e => (e.1, f e.2)) =
      insertEntry name (f v) (entries.map fun e => (e.1, f e.2)) := by
  induction entries with
  | nil => rfl
  | cons e others ih =>
    obtain ⟨n, w⟩ := e
    simp only [insertEntry, List.map_cons]
    split
    · rfl
    · split
      · rfl
      · rw [← ih]
        rfl

/-- Values may be changed before another one is bound. -/
lemma map_insert (b : Bindings) (name : String) (v : Value) :
    (b.insert name v).map f = (b.map f).insert name (f v) := by
  simp only [map, insert, map_insertEntry]

/-- A name is bound to the changed value. -/
lemma get?_map (b : Bindings) (name : String) : (b.map f).get? name = (b.get? name).map f := by
  simp only [get?, map]
  induction b.entries with
  | nil => rfl
  | cons e others ih =>
    obtain ⟨n, v⟩ := e
    simp only [List.map_cons, List.lookup_cons, ih]
    cases name == n <;> rfl

/-- Bindings of values that do not change are what they were. -/
lemma map_eq_self {b : Bindings} (fixed : ∀ e ∈ b.entries, f e.2 = e.2) : b.map f = b := by
  obtain ⟨entries, sorted⟩ := b
  have same : entries.map (fun e => (e.1, f e.2)) = entries.map id :=
    List.map_congr_left fun e mem => Prod.ext rfl (fixed e mem)
  rw [List.map_id] at same
  simp only [map, same]

/-- The same names are bound to the changed values. -/
lemma names_map (b : Bindings) : (b.map f).names = b.names := by
  simp [names, map]

end Bindings

namespace Store

/-- What was made in a store has been made in it later. -/
lemma Made.mono {s s' : Store} {v : Value} (h : s.Made v) (scopes : s.size ≤ s'.size)
    (closures : s.closures ≤ s'.closures) : s'.Made v := by
  induction v with
  | function f => exact ⟨Nat.lt_of_lt_of_le h.1 closures, Nat.lt_of_lt_of_le h.2 scopes⟩
  | returned v ih => exact ih h
  | _ => exact trivial

/-- A renaming that begins behind a value leaves it as it is. -/
lemma Made.rename_eq {s : Store} {v : Value} (h : s.Made v) (scopes : s.size ≤ r.firstScope)
    (closures : s.closures ≤ r.firstClosure) : v.rename r = v := by
  induction v with
  | function f =>
    have identity : r.identity f.identity = f.identity :=
      movedUp_of_lt (Nat.lt_of_lt_of_le h.1 closures)
    have scope : r.scope f.scope = f.scope := movedUp_of_lt (Nat.lt_of_lt_of_le h.2 scopes)
    simp only [Value.rename, Closure.rename, identity, scope]
  | returned v ih => exact congrArg Value.returned (ih h)
  | _ => rfl

/-- Behind the last scope there is none. -/
lemma scope?_eq_none {s : Store} {i : Nat} (le : s.size ≤ i) : s.scope? i = none := by
  rw [← Option.not_isSome_iff_eq_none, scope?_isSome]
  exact Nat.not_lt.2 le

namespace Binds

variable {s : Store} {P Q : Value → Prop}

/-- Values may be known by less. -/
lemma mono (h : s.Binds P) (imp : ∀ v, P v → Q v) : s.Binds Q :=
  fun i sc n v found entry => imp v (h i sc n v found entry)

/-- A new scope binds nothing. -/
lemma push (h : s.Binds P) (outer : Option Nat) : (s.push outer).1.Binds P := by
  intro i sc n v found entry
  rw [scope?_push] at found
  split at found
  · cases found
    cases entry
  · exact h i sc n v found entry

/-- A scope may be changed if only old values and good ones stay bound. -/
lemma modify (h : s.Binds P) (j : Nat) {f : Bindings → Bindings}
    (good : ∀ b e, e ∈ (f b).entries → e ∈ b.entries ∨ P e.2) : (s.modify j f).Binds P := by
  intro i sc n v found entry
  rw [scope?_modify] at found
  split at found
  · obtain ⟨sc', found', rfl⟩ := Option.map_eq_some_iff.1 found
    rcases good sc'.bindings (n, v) entry with old | new
    · exact h i sc' n v found' old
    · exact new
  · exact h i sc n v found entry

/-- What a look-up finds is bound somewhere. -/
lemma get? (h : s.Binds P) {i : Nat} {name : String} {v : Value}
    (found : s.get? i name = some v) : P v := by
  obtain ⟨j, sc, _, here, entry⟩ := exists_entry_of_get? found
  exact h j sc name v here entry

end Binds

namespace Renamed

variable {s s' : Store}

/-- The place of the next scope is the same under its new name. -/
lemma scope_size (h : s.Renamed r s') : r.scope s.size = s'.size := by
  rw [h.size]
  exact movedUp_of_le h.firstScope_le

/-- So is the identity of the next function. -/
lemma identity_closures (h : s.Renamed r s') : r.identity s.closures = s'.closures := by
  rw [h.closures]
  exact movedUp_of_le h.firstClosure_le

/-- A look-up finds the same under the new names. -/
lemma get? (h : s.Renamed r s') (i : Nat) (name : String) :
    s'.get? (r.scope i) name = (s.get? i name).map (·.rename r) := by
  induction i using Nat.strongRecOn with
  | ind i ih =>
    rw [get?_eq, get?_eq, h.same]
    cases found : s.scope? i with
    | none => rfl
    | some sc =>
      simp only [Option.map_some, Option.bind_some, Scope.rename, Bindings.get?_map]
      cases sc.bindings.get? name with
      | some v => rfl
      | none =>
        cases link : sc.outer with
        | none => rfl
        | some o => exact ih o (s.outer_lt i sc o found link)

/-- Renamed scopes are inside each other exactly as they were. -/
lemma isWithin (h : s.Renamed r s') (i a : Nat) :
    s'.isWithin (r.scope i) (r.scope a) = s.isWithin i a := by
  induction i using Nat.strongRecOn with
  | ind i ih =>
    rw [Bool.eq_iff_iff, isWithin_iff, isWithin_iff, h.same]
    refine or_congr r.scope_inj ?_
    constructor
    · rintro ⟨sc', o', found', link', within⟩
      obtain ⟨sc, found, rfl⟩ := Option.map_eq_some_iff.1 found'
      obtain ⟨o, link, rfl⟩ := Option.map_eq_some_iff.1 link'
      rw [ih o (s.outer_lt i sc o found link)] at within
      exact ⟨sc, o, found, link, within⟩
    · rintro ⟨sc, o, found, link, within⟩
      rw [← ih o (s.outer_lt i sc o found link)] at within
      exact ⟨sc.rename r, r.scope o, congrArg (Option.map _) found, congrArg (Option.map _) link,
        within⟩

/-- A renamed value was made inside a renamed scope exactly if it was. -/
lemma captures (h : s.Renamed r s') (v : Value) (a : Nat) :
    s'.captures (v.rename r) (r.scope a) = s.captures v a := by
  cases v with
  | function f => exact h.isWithin f.scope a
  | _ => rfl

/-- A renamed scope binds the same names. -/
lemma names (h : s.Renamed r s') (i : Nat) : s'.names (r.scope i) = s.names i := by
  rw [names_eq, names_eq, h.same]
  cases s.scope? i with
  | none => rfl
  | some sc => exact sc.bindings.names_map

/-- Another function is counted in both stores. -/
lemma countClosure (h : s.Renamed r s') : s.countClosure.Renamed r s'.countClosure where
  size := h.size
  closures := by
    show s'.closures + 1 = s.closures + 1 + r.closures
    rw [h.closures, Nat.add_right_comm]
  firstScope_le := h.firstScope_le
  firstClosure_le := Nat.le_succ_of_le h.firstClosure_le
  same := h.same
  made := Binds.mono (s := s) h.made fun v made => made.mono (Nat.le_refl _) (Nat.le_succ _)

/-- A scope is opened in both stores, inside the same scope under its two names. -/
lemma push (h : s.Renamed r s') (outer : Option Nat) :
    (s.push outer).1.Renamed r (s'.push (outer.map r.scope)).1 where
  size := by
    rw [size_push, size_push, h.size, Nat.add_right_comm]
  closures := h.closures
  firstScope_le := by
    rw [size_push]
    exact Nat.le_succ_of_le h.firstScope_le
  firstClosure_le := h.firstClosure_le
  same i := by
    rw [scope?_push, scope?_push, ← h.scope_size]
    by_cases new : i = s.size
    · rw [if_pos (congrArg r.scope new), if_pos new]
      cases outer with
      | none => rfl
      | some o =>
        by_cases inside : o < s.size <;>
          simp [Scope.rename, Option.filter, inside, Bindings.map_empty]
    · rw [if_neg (mt r.scope_inj.1 new), if_neg new]
      exact h.same i
  made := (h.made.push outer).mono fun v made => made.mono (by simp) (Nat.le_refl _)

/-- A change of the bindings of a scope that does not depend on names. -/
lemma modify (h : s.Renamed r s') (i : Nat) {f f' : Bindings → Bindings}
    (same : ∀ b, f' (b.map (·.rename r)) = (f b).map (·.rename r))
    (good : ∀ b e, e ∈ (f b).entries → e ∈ b.entries ∨ s.Made e.2) :
    (s.modify i f).Renamed r (s'.modify (r.scope i) f') where
  size := by
    rw [size_modify, size_modify, h.size]
  closures := h.closures
  firstScope_le := by
    rw [size_modify]
    exact h.firstScope_le
  firstClosure_le := h.firstClosure_le
  same j := by
    rw [scope?_modify, scope?_modify, h.same]
    by_cases here : i = j
    · rw [if_pos (congrArg r.scope here), if_pos here]
      cases s.scope? j with
      | none => rfl
      | some sc => exact congrArg (fun b => some (Scope.mk b _)) (same sc.bindings)
    · rw [if_neg (mt r.scope_inj.1 here), if_neg here]
  made := (h.made.modify i good).mono fun v made =>
    made.mono (Nat.le_of_eq (size_modify s i f).symm) (Nat.le_refl _)

/-- A value is bound in both stores under its two names. -/
lemma set (h : s.Renamed r s') (i : Nat) (name : String) {v : Value} (made : s.Made v) :
    (s.set i name v).Renamed r (s'.set (r.scope i) name (v.rename r)) := by
  refine h.modify i (fun b => (b.map_insert name v).symm) fun b e entry => ?_
  rcases Bindings.mem_insertEntry entry with rfl | old
  · exact .inr made
  · exact .inl old

/-- A scope is emptied in both stores. -/
lemma clear (h : s.Renamed r s') (i : Nat) : (s.clear i).Renamed r (s'.clear (r.scope i)) :=
  h.modify i (fun _ => rfl) fun _ _ entry => nomatch entry

/-- A store that has grown, but has none of the scopes there were changed, is a copy of what it was
in which the new scopes fill the gap. -/
lemma of_grows (made : s.Binds s.Made) (grows : s.Grows untouched s')
    (closures : s.closures ≤ s'.closures) : s.Renamed (.grown s s') s' where
  size := (Nat.add_sub_of_le grows.size_le).symm
  closures := (Nat.add_sub_of_le closures).symm
  firstScope_le := Nat.le_refl _
  firstClosure_le := Nat.le_refl _
  same i := by
    by_cases inside : i < s.size
    · have fixed {j : Nat} (inside : j < s.size) : (Renaming.grown s s').scope j = j :=
        movedUp_of_lt inside
      rw [fixed inside, grows.kept i inside id]
      cases found : s.scope? i with
      | none => rfl
      | some sc =>
        have bindings : sc.bindings.map (·.rename (.grown s s')) = sc.bindings :=
          Bindings.map_eq_self fun e entry =>
            (made i sc e.1 e.2 found entry).rename_eq (Nat.le_refl _) (Nat.le_refl _)
        have outer : sc.outer.map (Renaming.grown s s').scope = sc.outer := by
          cases link : sc.outer with
          | none => rfl
          | some o =>
            have lt := s.outer_lt i sc o found link
            exact congrArg some (fixed (Nat.lt_trans lt inside))
        exact congrArg some (congrArg₂ Scope.mk bindings outer).symm
    · have le := Nat.not_lt.1 inside
      have moved : (Renaming.grown s s').scope i = i + (s'.size - s.size) := movedUp_of_le le
      have le' : s'.size ≤ i + (s'.size - s.size) := by omega
      rw [moved, scope?_eq_none le, scope?_eq_none le']
      rfl
  made := made

/-- A new scope in a store stands alone there as in a store that has no other. -/
lemma new (s : Store) : empty.new.1.Renamed (.behind s) s.new.1 where
  size := by
    simp only [Store.new, size_push]
    exact Nat.add_comm _ _
  closures := (Nat.zero_add _).symm
  firstScope_le := Nat.zero_le _
  firstClosure_le := Nat.zero_le _
  same i := by
    have moved : (Renaming.behind s).scope i = i + s.size := movedUp_of_le (Nat.zero_le i)
    have nothing : empty.scope? i = none := scope?_eq_none (Nat.zero_le i)
    have start : empty.size = 0 := rfl
    rw [moved, Store.new, Store.new, scope?_push, scope?_push, start, nothing]
    cases i with
    | zero => simp [Scope.rename, Bindings.map_empty]
    | succ i =>
      have old : s.size < i + 1 + s.size := by omega
      rw [if_neg (Nat.ne_of_gt old), if_neg (Nat.succ_ne_zero i), scope?_eq_none (Nat.le_of_lt old)]
      rfl
  made := (show empty.Binds empty.new.1.Made from fun _ _ _ _ found => nomatch found).push none

end Renamed

end Store

end Monkey
