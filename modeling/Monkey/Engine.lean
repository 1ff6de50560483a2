import Monkey.Evaluation.Node
import Monkey.Files
import Monkey.Syntax.Source

/-!
# Running sources

An engine runs source texts and files, each in a scope of its own. All it keeps from one run to the
next is the count of calls in progress.
-/

namespace Monkey

/-- What comes of a source: diagnostics if it cannot be read, else the value it runs to. -/
inductive Outcome where
  | rejected (diagnostics : List Diagnostic)
  | value (value : Value)
  | outOfFuel

/-- The outcome of a run. -/
def Outcome.ofValue? : Option Value → Outcome
  | some v => .value v
  | none => .outOfFuel

/-- The machine that runs programs one after the other, between two of them. -/
structure Engine where
  depth : Nat
deriving DecidableEq, Repr

namespace Engine

/-- An engine that has run nothing yet. -/
def fresh : Engine := ⟨0⟩

/-- Runs a program in a new scope. The scope is emptied at the end, unless the value is a function
made inside it. -/
def runProgram (b : Bounds) (e : Engine) (p : Program) : Option Value × Machine :=
  match Store.empty.new with
  | (store, root) =>
    match p.eval b root ⟨store, e.depth⟩ with
    | (none, m) => (none, m)
    | (some value, m) =>
      let kept := m.store.captures value root
      (some value, if kept then m else { m with store := m.store.clear root })

/-- Runs a source that stands under a name, if it has one. -/
def runNamed (b : Bounds) (e : Engine) (name : Option String) (source : String) :
    Outcome × Engine :=
  let reading := Reading.ofSource source
  if reading.diagnostics.isEmpty then
    match e.runProgram b reading.program with
    | (value, m) => (.ofValue? value, ⟨m.depth⟩)
  else
    match name with
    | none => (.rejected reading.diagnostics, e)
    | some name => (.rejected (reading.diagnostics.map (·.inFile name)), e)

/-- Runs a source. -/
def run (b : Bounds) (e : Engine) (source : String) : Outcome × Engine := e.runNamed b none source

/-- Runs sources one after the other, each under its name if it has one. -/
def runAll (b : Bounds) (e : Engine) : List (Option String × String) → List Outcome × Engine
  | [] => ([], e)
  | (name, source) :: others =>
    match e.runNamed b name source with
    | (outcome, e) =>
      match e.runAll b others with
      | (outcomes, e) => (outcome :: outcomes, e)

/-- Runs a file. One that cannot be read is reported like a fault of its source. -/
def runFile (b : Bounds) (e : Engine) (files : Files) (p : Path) : Outcome × Engine :=
  match files.read p with
  | .ok source => e.runNamed b (some p.text) source
  | .error error =>
    let d := Diagnostic.ofSpan Diagnostic.unreadableFile
      ("failed to read file: " ++ error.message) .nowhere
    (.rejected [d.inFile p.text], e)

end Engine

end Monkey
