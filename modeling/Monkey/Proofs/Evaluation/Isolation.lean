import Monkey.Proofs.Evaluation.Alone
import Monkey.Proofs.Evaluation.Frame

/-!
# Isolation of calls

The stores that programs meet are built by operations on scopes and by evaluations. They are closed:
every function in them was made in one of their scopes. Together with the frame this isolates calls:
no scope that was there before a call leads to one that the call opened. Main statement:
`Store.Reached.isolated`.
-/

namespace Monkey

/-- A plain value was made nowhere. -/
lemma Value.home?_of_isPlain {v : Value} (h : v.IsPlain) : v.home? = none := by
  cases v with
  | integer | boolean | string | null => rfl
  | function | returned | error => cases h

/-- What evaluations on closed stores keep: the store stays closed and holds all values. -/
def holding : Agreement where
  World := { m : Machine // m.store.Closed }
  left := Subtype.val
  right := Subtype.val
  le w w' := w.1.store.size ≤ w'.1.store.size
  scope w i := i < w.1.store.size
  value w v := w.1.store.Holds v
  stop w s := ∀ v, s = .returned v → w.1.store.Holds v
  givesUp _ := False
  refl _ := Nat.le_refl _
  trans := Nat.le_trans
  scope_mono le h := Nat.lt_of_lt_of_le h le
  value_mono le h := h.mono le
  plain _ _ plain := .of_home_eq_none (Value.home?_of_isPlain plain)
  returned h v eq := by
    cases eq
    exact h
  failed _ _ _ eq := nomatch eq

/-- A computation that keeps the store closed and gives a value it holds. -/
lemma holding_sim {m : Machine} {closed : m.store.Closed} {x : Eval Value}
    (grows : m.store.size ≤ (x m).2.store.size) (closed' : (x m).2.store.Closed)
    (value : ∀ v, (x m).1 = .ok v ∨ (x m).1 = .error (.returned v) → (x m).2.store.Holds v) :
    holding.Sim holding.value ⟨m, closed⟩ x x := by
  refine Agreement.sim_alone (A := holding) (fun _ => rfl) ⟨(x m).2, closed'⟩ grows rfl
    (fun v run => value v (.inl run)) ?_
  rintro s run v rfl
  exact value v (.inr run)

/-- The operations of an evaluation keep the store closed. -/
lemma holding_lawful : holding.Lawful where
  lookup := by
    rintro ⟨m, closed⟩ i name _
    apply holding_sim
    all_goals rw [Eval.lookup_apply]
    · split <;> exact Nat.le_refl _
    · split <;> exact closed
    · cases found : m.store.get? i name with
      | none =>
        rintro v (eq | eq)
        · cases eq
        · cases eq
      | some v =>
        rintro v' (eq | eq)
        · cases eq
          exact closed.get? found
        · cases eq
  assign := by
    rintro ⟨m, closed⟩ i v name _ held
    refine .inr ⟨⟨_, closed.set i name held⟩, ?_, rfl, rfl, .ok trivial⟩
    exact Nat.le_of_eq (Store.size_set m.store i name v).symm
  makeClosure := by
    rintro ⟨m, closed⟩ i params body _ inside
    apply holding_sim
    · exact Nat.le_refl _
    · exact closed.countClosure
    · rintro v (eq | eq)
      · cases eq
        rintro j home
        cases home
        exact inside
      · cases eq

/-- Binding the parameters of a call keeps a store closed if it holds the arguments. -/
lemma Machine.bindParams_closed {s : Store} (scope : Nat) (params : List Identifier)
    (args : List Value) (closed : s.Closed) (held : ∀ v ∈ args, s.Holds v) :
    (bindParams s scope params args).Closed ∧ (bindParams s scope params args).size = s.size := by
  refine bindParams_keeps (P := fun s' => s'.Closed ∧ s'.size = s.size) params ?_ ⟨closed, rfl⟩
  rintro s' name v mem ⟨closed', size⟩
  have held' : s'.Holds v := (held v mem).mono (Nat.le_of_eq size.symm)
  exact ⟨closed'.set scope name held', (Store.size_set s' _ _ _).trans size⟩

/-- A call begins on a closed store, with one scope more. -/
lemma Machine.enter_closed {m : Machine} (f : Closure) {args : List Value}
    (closed : m.store.Closed) (held : ∀ v ∈ args, m.store.Holds v) :
    (m.enter f args).2.store.Closed ∧ (m.enter f args).2.store.size = m.store.size + 1 := by
  have le : m.store.size ≤ (m.store.push (some f.scope)).1.size := by simp
  rw [← Store.size_push m.store (some f.scope), enter_eq]
  exact bindParams_closed m.store.size f.params args (closed.push (some f.scope))
    fun v mem => (held v mem).mono le

/-- The beginnings and ends of calls keep the store closed. -/
lemma holding_lawfulCalls : holding.LawfulCalls fun _ => True where
  same _ := rfl
  never _ := id
  stop := Iff.rfl
  spoken _ _ _ := trivial
  enters {w f args} _ held := by
    obtain ⟨m, closed⟩ := w
    obtain ⟨closed', size⟩ := m.enter_closed f closed held
    have new : m.store.size < (m.enter f args).2.store.size := size ▸ Nat.lt_succ_self _
    exact ⟨⟨_, closed'⟩, Nat.le_of_lt new, rfl, new⟩
  leaves {w m i} _ ends := by
    obtain ⟨m', closed⟩ := w
    rcases ends with kept | emptied
    · exact ⟨⟨m, kept ▸ closed⟩, Nat.le_of_eq (congrArg Store.size kept.symm), rfl⟩
    · refine ⟨⟨m, emptied ▸ closed.clear i⟩, ?_, rfl⟩
      show m'.store.size ≤ m.store.size
      rw [emptied, Store.size_clear]
      exact Nat.le_refl _

/-- An evaluation on a closed store keeps to it at each of its points. -/
lemma holding_alone (limit : Nat) : holding.Alone (fun _ => True) limit :=
  holding_lawfulCalls.alone holding_lawful limit

/-- Every node may be evaluated in a closed store. -/
lemma holding_suits (w : holding.World) (node : Node) :
    holding.Suits (fun _ => True) w node.task := by
  cases node with
  | program | block => exact ⟨.of_home_eq_none rfl, fun _ _ => trivial⟩
  | statement | expression => exact fun _ _ => trivial

/-- An evaluation in a scope of a closed store leaves the store closed. -/
lemma Node.eval_closed (b : Bounds) (node : Node) {scope : Nat} {m : Machine}
    (closed : m.store.Closed) (inside : scope < m.store.size) :
    (node.eval b scope m).2.store.Closed := by
  obtain ⟨⟨m', closed'⟩, _, machine, _⟩ := (holding_alone b.limit).node b.fuel node
    (w := ⟨m, closed⟩) inside (holding_suits _ node)
  have machine : m' = (node.run (call b.limit b.fuel) scope m).2 := machine
  rw [Node.eval_eq, ← machine]
  exact closed'

namespace Store

/-- The stores that programs meet: built from nothing by operations on scopes, with values that the
store holds, and by evaluations of whole nodes. -/
inductive Reached : Store → Prop where
  | empty :
    Reached .empty
  | new {s} :
    Reached s →
    Reached s.new.1
  | enclosed {s i} :
    Reached s →
    i < s.size →
    Reached (s.enclosed i).1
  | set {s i v} (name : String) :
    Reached s →
    i < s.size →
    s.Holds v →
    Reached (s.set i name v)
  | clear {s i} :
    Reached s →
    i < s.size →
    Reached (s.clear i)
  | eval {s i} (b : Bounds) (node : Node) (depth : Nat) :
    Reached s →
    i < s.size →
    Reached (node.eval b i ⟨s, depth⟩).2.store

/-- A store that was reached is closed. -/
lemma Reached.closed {s : Store} (h : s.Reached) : s.Closed := by
  induction h with
  | empty => exact closed_empty
  | new _ ih => exact ih.push none
  | enclosed _ _ ih => exact ih.push _
  | set name _ _ held ih => exact ih.set _ name held
  | clear _ _ ih => exact ih.clear _
  | eval b node depth _ inside ih => exact Node.eval_closed b node ih inside

/-- If the scopes of a closed store are left as they were, none of them leads to a later one. -/
lemma Closed.reaches_lt {s s' : Store} (closed : s.Closed) (grows : s.Grows untouched s')
    {i j : Nat} (path : s'.Reaches i j) (old : i < s.size) : j < s.size :=
  path.region (R := (· < s.size)) (fun k _ inside link =>
    closed.link (link.congr (grows.kept k inside id))) old

/-- Calls leave every older scope alone. For any value and arguments, the scopes that there were
before a call are afterwards what they were, and neither they nor a value that was there before lead
to a scope that the call opened. An evaluation in a scope changes, among the scopes there were, the
bindings of this one at most, and unbinds no name in it. -/
theorem Reached.isolated {s : Store} (reached : s.Reached) (b : Bounds) (depth : Nat) :
    (∀ (callee : Value) (args : List Value),
      (∀ i, i < s.size →
        (call b.limit b.fuel callee args ⟨s, depth⟩).2.store.scope? i = s.scope? i) ∧
      (∀ i j, i < s.size →
        (call b.limit b.fuel callee args ⟨s, depth⟩).2.store.Reaches i j → j < s.size) ∧
      (∀ v j, s.Holds v →
        (call b.limit b.fuel callee args ⟨s, depth⟩).2.store.ReachedFrom v j → j < s.size)) ∧
    (∀ (node : Node) (scope : Nat),
      (∀ i, i < s.size → i ≠ scope →
        (node.eval b scope ⟨s, depth⟩).2.store.scope? i = s.scope? i) ∧
      (∀ i, i < s.size → ((node.eval b scope ⟨s, depth⟩).2.store.scope? i).map (·.outer) =
        (s.scope? i).map (·.outer)) ∧
      (∀ name ∈ s.names scope, name ∈ (node.eval b scope ⟨s, depth⟩).2.store.names scope)) := by
  constructor
  · intro callee args
    have grows := callBy_grows Machine.leave_modest b.limit b.fuel callee args ⟨s, depth⟩
    rw [← call_eq_callBy] at grows
    refine ⟨fun i old => grows.kept i old id, fun i j old path => ?_, ?_⟩
    · exact reached.closed.reaches_lt grows path old
    · rintro v j held ⟨i, home, path⟩
      exact reached.closed.reaches_lt grows path (held i home)
  · intro node scope
    have grows := node.eval_grows b scope ⟨s, depth⟩
    exact ⟨grows.kept, grows.outer, fun name bound => grows.names scope name bound⟩

/-- A function made in the outermost scope: `fn(y) { let x = y; fn() { x } }`. -/
def keeper : Closure where
  identity := 0
  params := [⟨"y", .nowhere⟩]
  body := ⟨[.letStmt ⟨"x", .nowhere⟩ (.identifier ⟨"y", .nowhere⟩) .nowhere,
    .exprStmt (.function [] ⟨[.exprStmt (.identifier ⟨"x", .nowhere⟩) .nowhere], .nowhere⟩
      .nowhere) .nowhere], .nowhere⟩
  scope := 0

/-- A call that rebinds a name of the scope around it, and returns a function that still needs the
scope of the call, leaves the scope around it alone. -/
theorem Reached.isolated_keeper :
    (Store.empty.new.1.set 0 "x" (.integer 1)).Reached ∧
      (call 0 9 (.function keeper) [.integer 2]
        ⟨Store.empty.new.1.set 0 "x" (.integer 1), 0⟩).2.store.scope? 0 =
          (Store.empty.new.1.set 0 "x" (.integer 1)).scope? 0 ∧
      ∀ j, (call 0 9 (.function keeper) [.integer 2]
        ⟨Store.empty.new.1.set 0 "x" (.integer 1), 0⟩).2.store.Reaches 0 j → j < 1 := by
  have reached : (Store.empty.new.1.set 0 "x" (.integer 1)).Reached :=
    .set "x" (.new .empty) (by decide) (.of_home_eq_none rfl)
  have isolated := (Reached.isolated reached ⟨0, 9⟩ 0).1 (.function keeper) [.integer 2]
  refine ⟨reached, isolated.1 0 (by decide), fun j path => ?_⟩
  exact isolated.2.1 0 j (by decide) path

end Store

end Monkey
