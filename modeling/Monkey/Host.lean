import Monkey.Evaluation.Node

/-!
# Hosts

A host works on scopes and values from outside of the language, step by step. It names a scope by a
handle and a value by its number; several handles may name one scope, since a handle can be cloned,
and each function hands out a handle to the scope it was made in.
-/

namespace Monkey

/-- A machine, with the scopes that the handles name and the values at hand, both in the order in
which they were got. -/
structure Host where
  machine : Machine
  handles : List Nat
  values : List Value

namespace Host

/-- What a host can be asked to do. Handles and values are given by their numbers. -/
inductive Step where
  | new
  | enclosed (handle : Nat)
  | clone (handle : Nat)
  /-- A handle to the scope that a function was made in. -/
  | home (value : Nat)
  | literal (l : Literal)
  | null
  /-- A `return` with a value, on its way out. -/
  | returned (value : Nat)
  | error (e : RuntimeError)
  | get (handle : Nat) (name : String)
  | set (handle : Nat) (name : String) (value : Nat)
  | clear (handle : Nat)
  | names (handle : Nat)
  | same (a b : Nat)
  | isWithin (inner outer : Nat)
  | captures (value handle : Nat)
  | eval (b : Bounds) (node : Node) (handle : Nat)

/-- What comes of a step. -/
inductive Answer where
  /-- There is no such handle or value. -/
  | missing
  | handle (number : Nat)
  | value (number : Nat) (v : Value)
  | unbound
  | done
  | names (names : List String)
  | truth (b : Bool)
  | outOfFuel

/-- The scopes there are. -/
def store (h : Host) : Store := h.machine.store

/-- The host with another store. -/
def withStore (h : Host) (store : Store) : Host := { h with machine := ⟨store, h.machine.depth⟩ }

/-- Gets a handle to a scope. -/
def addHandle (h : Host) (scope : Nat) : Answer × Host :=
  (.handle h.handles.length, { h with handles := h.handles ++ [scope] })

/-- Gets a value. -/
def addValue (h : Host) (v : Value) : Answer × Host :=
  (.value h.values.length v, { h with values := h.values ++ [v] })

/-- Opens a scope and gets a handle to it. -/
def addScope (h : Host) : Store × Nat → Answer × Host
  | (store, scope) => (h.withStore store).addHandle scope

/-- Gets the value of an evaluation. -/
def addResult (h : Host) : Option Value × Machine → Answer × Host
  | (some v, m) => { h with machine := m }.addValue v
  | (none, m) => (.outOfFuel, { h with machine := m })

/-- Takes a step if the handles and values in it are there. -/
def attempt (h : Host) : Step → Option (Answer × Host)
  | .new => h.addScope h.store.new
  | .enclosed k => h.handles[k]?.map fun scope => h.addScope (h.store.enclosed scope)
  | .clone k => h.handles[k]?.map h.addHandle
  | .home j => h.values[j]?.bind fun
    | .function f => h.addHandle f.scope
    | _ => none
  | .literal l => h.addValue (.ofLiteral l)
  | .null => h.addValue .null
  | .returned j => h.values[j]?.map fun v => h.addValue (.returned v)
  | .error e => h.addValue (.error e)
  | .get k name => h.handles[k]?.map fun scope =>
    match h.store.get? scope name with
    | some v => h.addValue v
    | none => (.unbound, h)
  | .set k name j => h.handles[k]?.bind fun scope => h.values[j]?.map fun v =>
    (.done, h.withStore (h.store.set scope name v))
  | .clear k => h.handles[k]?.map fun scope =>
    (.done, h.withStore (h.store.clear scope))
  | .names k => h.handles[k]?.map fun scope => (.names (h.store.names scope), h)
  | .same k k' => h.handles[k]?.bind fun a => h.handles[k']?.map fun b => (.truth (a == b), h)
  | .isWithin k k' => h.handles[k]?.bind fun a => h.handles[k']?.map fun b =>
    (.truth (h.store.isWithin a b), h)
  | .captures j k => h.values[j]?.bind fun v => h.handles[k]?.map fun scope =>
    (.truth (h.store.captures v scope), h)
  | .eval b node k => h.handles[k]?.map fun scope => h.addResult (node.eval b scope h.machine)

/-- Takes a step. One whose handles or values are missing does nothing. -/
def take (h : Host) (step : Step) : Answer × Host := (h.attempt step).getD (.missing, h)

/-- Takes steps one after the other. -/
def takeAll (h : Host) : List Step → List Answer × Host
  | [] => ([], h)
  | step :: others =>
    match h.take step with
    | (answer, h) =>
      match h.takeAll others with
      | (answers, h) => (answer :: answers, h)

/-- The host after some steps. -/
def after (h : Host) (steps : List Step) : Host := (h.takeAll steps).2

/-- A host with one handle, to a new scope. -/
def start : Host := ⟨⟨Store.empty.new.1, 0⟩, [Store.empty.new.2], []⟩

/-- The step with other handles in the place of those in it. -/
def Step.rename (r : Nat → Nat) : Step → Step
  | .enclosed k => .enclosed (r k)
  | .clone k => .clone (r k)
  | .get k name => .get (r k) name
  | .set k name j => .set (r k) name j
  | .clear k => .clear (r k)
  | .names k => .names (r k)
  | .same k k' => .same (r k) (r k')
  | .isWithin k k' => .isWithin (r k) (r k')
  | .captures j k => .captures j (r k)
  | .eval b node k => .eval b node (r k)
  | step => step

end Host

end Monkey
