import Monkey.Proofs.Evaluation.Alone
import Monkey.Proofs.Evaluation.Depth
import Monkey.Proofs.Evaluation.Isolation
import Monkey.Proofs.Store.Likeness

/-!
# Kinds of values that evaluation keeps to

The values that evaluation itself makes are plain values, and functions whose bodies it came upon;
any other value was there before. So if all values that are met from a scope are of a kind to which
these belong, an evaluation in the scope gives values of that kind only and binds no other. Main
statements: `keeping_task`, for all tasks, and `Node.run_keeps`.
-/

namespace Monkey

/-- A kind of values. All values belong to it that evaluation makes, as long as it comes upon
certain names only. -/
structure Value.Kind where
  holds : Value → Prop
  /-- The names that functions of the kind may use. -/
  names : String → Prop
  plain : ∀ {v}, v.IsPlain → holds v
  function : ∀ f, holds (.function f) ↔ ∀ name ∈ f.body.uses, names name

/-- The names that a node uses. -/
def Node.uses (node : Node) : List String := node.task.uses

namespace Store

/-- A value is bound in a scope that one gets to from this one. -/
def Meets (s : Store) (i : Nat) (v : Value) : Prop :=
  ∃ j sc n, s.Reaches i j ∧ s.scope? j = some sc ∧ (n, v) ∈ sc.bindings.entries

/-- In a new root there is nothing to meet. -/
lemma not_meets_new (v : Value) : ¬ empty.new.1.Meets 0 v := by
  rintro ⟨j, sc, n, _, found, entry⟩
  rw [new, scope?_push] at found
  split at found
  · cases found
    cases entry
  · cases found

/-- No step leads from the live places elsewhere, and all values bound there are of the kind. -/
structure Keeps (s : Store) (K : Value.Kind) (live : Nat → Prop) : Prop where
  steps : ∀ i j, live i → s.Link i j → live j
  bound : ∀ i sc n v, live i → s.scope? i = some sc → (n, v) ∈ sc.bindings.entries → K.holds v

namespace Keeps

variable {s : Store} {K : Value.Kind} {live : Nat → Prop}

/-- The places that one gets to from a scope are kept if all values met there are of the kind. -/
lemma of_meets {i : Nat} (h : ∀ v, s.Meets i v → K.holds v) : s.Keeps K (s.Reaches i) where
  steps _ _ path link := .tail path link
  bound j sc n v path found entry := h v ⟨j, sc, n, path, found, entry⟩

/-- Values that are met from a live place are of the kind. -/
lemma holds_of_meets (h : s.Keeps K live) {i : Nat} (start : live i) {v : Value}
    (met : s.Meets i v) : K.holds v := by
  obtain ⟨j, sc, n, path, found, entry⟩ := met
  exact h.bound j sc n v (path.region h.steps start) found entry

/-- What a look-up from a live place finds is of the kind and was made in a live place. -/
lemma get? (h : s.Keeps K live) {i : Nat} (start : live i) {name : String} {v : Value}
    (found : s.get? i name = some v) : K.holds v ∧ ∀ j, v.home? = some j → live j := by
  obtain ⟨j, sc, path, here, entry⟩ := exists_entry_of_get? found
  have there : live j := path.region h.steps start
  exact ⟨h.bound j sc name v there here entry,
    fun k home => h.steps j k there (.bound here entry home)⟩

/-- A value of the kind that was made in a live place may be bound. -/
lemma set (h : s.Keeps K live) (i : Nat) (name : String) {v : Value} (holds : K.holds v)
    (good : ∀ j, v.home? = some j → live j) : (s.set i name v).Keeps K live where
  steps j k start link := by
    rcases link.of_set with old | ⟨_, home⟩
    · exact h.steps j k start old
    · exact good k home
  bound j sc n w start found entry := by
    rw [Store.set, scope?_modify] at found
    split at found
    · obtain ⟨sc', here, rfl⟩ := Option.map_eq_some_iff.1 found
      rcases Bindings.mem_insertEntry entry with new | old
      · cases new
        exact holds
      · exact h.bound j sc' n w start here old
    · exact h.bound j sc n w start found entry

/-- Opening a scope inside a live one, which makes the new one live. -/
lemma push (h : s.Keeps K live) {outer : Nat} (good : live outer) :
    (s.push (some outer)).1.Keeps K (fun i => live i ∨ i = s.size) where
  steps i j start link := by
    rcases link.of_push with old | ⟨_, eq⟩
    · rcases start with start | rfl
      · exact .inl (h.steps i j start old)
      · exact absurd old.lt_size (Nat.lt_irrefl _)
    · cases eq
      exact .inl good
  bound i sc n v start found entry := by
    rw [scope?_push] at found
    split at found
    · cases found
      cases entry
    · rename_i old
      rcases start with start | new
      · exact h.bound i sc n v start found entry
      · exact absurd new old

/-- A scope may be emptied. -/
lemma clear (h : s.Keeps K live) (i : Nat) : (s.clear i).Keeps K live where
  steps j k start link := by
    cases link with
    | outer found link =>
      rw [Store.clear, scope?_modify] at found
      split at found
      · obtain ⟨sc', here, rfl⟩ := Option.map_eq_some_iff.1 found
        exact h.steps j k start (.outer here link)
      · exact h.steps j k start (.outer found link)
    | bound found entry home =>
      rw [Store.clear, scope?_modify] at found
      split at found
      · obtain ⟨sc', _, rfl⟩ := Option.map_eq_some_iff.1 found
        cases entry
      · exact h.steps j k start (.bound found entry home)
  bound j sc n v start found entry := by
    rw [Store.clear, scope?_modify] at found
    split at found
    · obtain ⟨sc', _, rfl⟩ := Option.map_eq_some_iff.1 found
      cases entry
    · exact h.bound j sc n v start found entry

/-- A function may be counted. -/
lemma countClosure (h : s.Keeps K live) : s.countClosure.Keeps K live where
  steps i j start link := h.steps i j start (link.congr (scope?_countClosure s i))
  bound := h.bound

/-- Arguments of the kind that were made in live places may be bound. -/
lemma bindParams (h : s.Keeps K live) (scope : Nat) (params : List Identifier) (args : List Value)
    (good : ∀ v ∈ args, K.holds v ∧ ∀ j, v.home? = some j → live j) :
    (Machine.bindParams s scope params args).Keeps K live :=
  Machine.bindParams_keeps (P := fun s => s.Keeps K live) params
    (fun _ name v mem h => h.set scope name (good v mem).1 (good v mem).2) h

end Keeps

end Store

/-- A machine, and the places of it where only values of the kind are bound. -/
structure Precinct (K : Value.Kind) where
  machine : Machine
  live : Nat → Prop
  keeps : machine.store.Keeps K live

/-- What evaluations in live places keep: all values are of the kind and were made in live places,
which stay live. -/
def keeping (K : Value.Kind) : Agreement where
  World := Precinct K
  left := Precinct.machine
  right := Precinct.machine
  le w w' := ∀ i, w.live i → w'.live i
  scope w i := w.live i
  value w v := K.holds v ∧ ∀ i, v.home? = some i → w.live i
  stop w s := ∀ v, s = .returned v → K.holds v ∧ ∀ i, v.home? = some i → w.live i
  givesUp _ := False
  refl _ _ live := live
  trans h h' i live := h' i (h i live)
  scope_mono le live := le _ live
  value_mono le good := ⟨good.1, fun i home => le i (good.2 i home)⟩
  plain _ _ plain := ⟨K.plain plain, fun i home => by
    rw [Value.home?_of_isPlain plain] at home
    cases home⟩
  returned good v eq := by
    cases eq
    exact good
  failed _ _ _ eq := nomatch eq

variable {K : Value.Kind}

/-- A computation that keeps the live places and gives a value of the kind made in one of them. -/
lemma keeping_sim {w : Precinct K} {x : Eval Value} (w' : Precinct K)
    (le : ∀ i, w.live i → w'.live i) (machine : w'.machine = (x w.machine).2)
    (value : ∀ v, (x w.machine).1 = .ok v ∨ (x w.machine).1 = .error (.returned v) →
      K.holds v ∧ ∀ i, v.home? = some i → w'.live i) :
    (keeping K).Sim (keeping K).value w x x := by
  refine Agreement.sim_alone (A := keeping K) (fun _ => rfl) w' le machine
    (fun v run => value v (.inl run)) ?_
  rintro s run v rfl
  exact value v (.inr run)

/-- The operations of an evaluation keep to the kind. -/
lemma keeping_lawful (K : Value.Kind) : (keeping K).LawfulOn K.names where
  lookup := by
    intro (w : Precinct K) i name live
    refine keeping_sim w (fun _ => id) ?_ ?_
    · rw [Eval.lookup_apply]
      split <;> rfl
    · rw [Eval.lookup_apply]
      cases found : w.machine.store.get? i name with
      | none =>
        rintro v (eq | eq)
        · cases eq
        · cases eq
      | some v =>
        rintro v' (eq | eq)
        · cases eq
          exact w.keeps.get? live found
        · cases eq
  assign := by
    intro (w : Precinct K) i v name _ good
    exact .inr ⟨⟨(Eval.assign i name v w.machine).2, w.live, w.keeps.set i name good.1 good.2⟩,
      fun _ live => live, rfl, rfl, .ok trivial⟩
  makeClosure := by
    intro (w : Precinct K) i params body spoken live
    refine keeping_sim ⟨⟨w.machine.store.countClosure, w.machine.depth⟩, w.live,
      w.keeps.countClosure⟩ (fun _ => id) rfl ?_
    rintro v (eq | eq)
    · cases eq
      refine ⟨(K.function _).2 spoken, fun j home => ?_⟩
      cases home
      exact live
    · cases eq

/-- A machine after a call was begun: the new scope is live. -/
def Precinct.enter (w : Precinct K) (f : Closure) (args : List Value) (live : w.live f.scope)
    (good : ∀ v ∈ args, K.holds v ∧ ∀ i, v.home? = some i → w.live i) : Precinct K where
  machine := (w.machine.enter f args).2
  live i := w.live i ∨ i = w.machine.store.size
  keeps := by
    rw [Machine.enter_eq]
    exact (w.keeps.push live).bindParams _ _ _ fun v mem =>
      ⟨(good v mem).1, fun i home => .inl ((good v mem).2 i home)⟩

/-- The beginnings and ends of calls keep to the kind. -/
lemma keeping_lawfulCalls (K : Value.Kind) : (keeping K).LawfulCalls K.names where
  same _ := rfl
  never _ := id
  stop := Iff.rfl
  spoken callee := (K.function _).1 callee.1
  enters {w f args} callee good :=
    ⟨Precinct.enter w f args (callee.2 _ rfl) good, fun _ old => .inl old, rfl, .inr rfl⟩
  -- The scope of the call stays live, although nothing may need it any more.
  leaves {w m i} _ ends := by
    have keeps : m.store.Keeps K (Precinct.live w) := by
      rcases ends with kept | emptied
      · exact kept ▸ Precinct.keeps w
      · exact emptied ▸ (Precinct.keeps w).clear i
    exact ⟨⟨m, Precinct.live w, keeps⟩, fun _ live => live, rfl⟩

/-- The values that a task begins with are of the kind and were made in live places, and the task
uses only names that functions of the kind may use. -/
def Precinct.Suits (w : Precinct K) : Task → Prop
  | .body last ss => (keeping K).value w last ∧ ∀ name ∈ Stmt.usesList ss, K.names name
  | .call callee args => (keeping K).value w callee ∧ ∀ v ∈ args, (keeping K).value w v
  | t => ∀ name ∈ t.uses, K.names name

/-- A task suits a precinct as it suits the agreement. -/
lemma Precinct.suits_iff {w : Precinct K} {t : Task} :
    w.Suits t ↔ (keeping K).Suits K.names w t := by
  cases t <;> exact Iff.rfl

/-- Keeping to the kind is said of one evaluation. -/
lemma keeping_alone (K : Value.Kind) (limit : Nat) : (keeping K).Alone K.names limit :=
  (keeping_lawfulCalls K).alone (keeping_lawful K) limit

/-- A task that is done in a live place keeps to the kind. -/
theorem keeping_task (limit fuel : Nat) (task : Task) (w : Precinct K) {i : Nat}
    (live : w.live i) (suits : w.Suits task) :
    ∃ w' : Precinct K, (∀ i, w.live i → w'.live i) ∧
      w'.machine = (task.run (call limit fuel) i w.machine).2 ∧
      (∀ vs, (task.run (call limit fuel) i w.machine).1 = .ok vs →
        ∀ v ∈ vs, (keeping K).value w' v) ∧
      ∀ v, (task.run (call limit fuel) i w.machine).1 = .error (.returned v) →
        (keeping K).value w' v := by
  obtain ⟨w', le, machine, values, stop⟩ :=
    (keeping_alone K limit).task fuel task (w := w) live (Precinct.suits_iff.1 suits)
  exact ⟨w', le, machine, values, fun v run => stop _ run v rfl⟩

/-- A node that uses names of the kind suits. -/
lemma Precinct.suits_of_uses (w : Precinct K) (node : Node)
    (spoken : ∀ name ∈ node.uses, K.names name) : w.Suits node.task := by
  cases node with
  | program _ | block _ => exact ⟨(keeping K).plain w (v := .null) trivial, spoken⟩
  | statement _ | expression _ => exact spoken

/-- If all values that are met from a scope are of a kind, so are those that an evaluation in the
scope gives, and those that are met from the scope afterwards. -/
theorem Node.run_keeps (K : Value.Kind) (b : Bounds) (node : Node) {scope : Nat} {m : Machine}
    (met : ∀ v, m.store.Meets scope v → K.holds v)
    (spoken : ∀ name ∈ node.uses, K.names name) :
    (∀ v, (node.run (call b.limit b.fuel) scope m).1 = .ok v ∨
        (node.run (call b.limit b.fuel) scope m).1 = .error (.returned v) → K.holds v) ∧
      ∀ v, (node.run (call b.limit b.fuel) scope m).2.store.Meets scope v → K.holds v := by
  let w : Precinct K := ⟨m, m.store.Reaches scope, .of_meets met⟩
  obtain ⟨w', le, machine, value, stop⟩ := (keeping_alone K b.limit).node b.fuel node (w := w)
    .refl (Precinct.suits_iff.1 (w.suits_of_uses node spoken))
  refine ⟨fun v given => ?_, fun v => ?_⟩
  · rcases given with run | run
    · exact (value v run).1
    · exact (stop _ run v rfl).1
  · have machine : w'.machine = (node.run (call b.limit b.fuel) scope m).2 := machine
    rw [← machine]
    exact w'.keeps.holds_of_meets (le scope .refl)

end Monkey
