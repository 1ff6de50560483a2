import Monkey.Engine

/-!
# Sessions

A session evaluates line after line in one scope, so that what one line binds the next can use. A
line that cannot be read does nothing but report why.
-/

namespace Monkey

/-- The answer to a line. -/
inductive LineAnswer where
  /-- The line cannot be read. -/
  | rejected (diagnostics : List Diagnostic)
  /-- The line holds no statement. -/
  | blank
  | value (value : Value)
  | outOfFuel

/-- A session: its machine, and the scope its lines are evaluated in. -/
structure Session where
  machine : Machine
  scope : Nat

namespace Session

/-- A session that begins in a new scope of a machine. -/
def begin (m : Machine) : Session :=
  match m.store.new with
  | (store, scope) => ⟨⟨store, m.depth⟩, scope⟩

/-- A new session. -/
def new : Session := begin ⟨.empty, 0⟩

/-- Evaluates a line. -/
def evalLine (b : Bounds) (s : Session) (line : String) : LineAnswer × Session :=
  let reading := Reading.ofSource line
  if !reading.diagnostics.isEmpty then (.rejected reading.diagnostics, s)
  else if reading.program.statements.isEmpty then (.blank, s)
  else
    match reading.program.eval b s.scope s.machine with
    | (some value, m) => (.value value, { s with machine := m })
    | (none, m) => (.outOfFuel, { s with machine := m })

/-- Drops all bindings, and goes on in a new scope. The old one is emptied, since functions made in
it may still be there. -/
def reset (s : Session) : Session :=
  begin { s.machine with store := s.machine.store.clear s.scope }

/-- The names that lines have bound, with their values, in the order of names. -/
def bindings (s : Session) : List (String × Value) :=
  (s.machine.store.names s.scope).filterMap fun name =>
    (s.machine.store.get? s.scope name).map fun value => (name, value)

end Session

end Monkey
