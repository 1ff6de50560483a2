import Monkey.Evaluation

/-!
# Evaluating whole nodes

A program, a statement, a block or an expression can be evaluated by itself. Whatever stops the
evaluation is then handed out as a value; only an evaluation that ran out of fuel has none. A
program is where a `return` ends, the other nodes hand it on.
-/

namespace Monkey

/-- A part of a program that can be evaluated by itself. -/
inductive Node where
  | program (program : Program)
  | statement (statement : Stmt)
  | block (block : Block)
  | expression (expression : Expr)

/-- The settings of an evaluation: how many calls may be in progress at once (0 for any number), and
how many it may begin inside each other before it gives up. -/
structure Bounds where
  limit : Nat
  fuel : Nat
deriving DecidableEq, Repr

/-- How many calls may be in progress at once unless it is set otherwise. -/
def Bounds.defaultLimit : Nat := 1000

namespace Eval

/-- The value of a program, where a `return` ends; `none` if the fuel was too little. -/
def finish : Except Stop Value → Option Value
  | .ok value => some value
  | .error (.returned value) => some value
  | .error (.failed error) => some (.error error)
  | .error .outOfFuel => none

/-- The value of a part of a program, which hands a `return` on; `none` if the fuel was too
little. -/
def handOn : Except Stop Value → Option Value
  | .ok value => some value
  | .error (.returned value) => some (.returned value)
  | .error (.failed error) => some (.error error)
  | .error .outOfFuel => none

end Eval

/-- Evaluates a program in a scope. -/
def Program.eval (b : Bounds) (p : Program) (scope : Nat) (m : Machine) : Option Value × Machine :=
  match Stmt.evalList (call b.limit b.fuel) scope .null p.statements m with
  | (result, m) => (Eval.finish result, m)

/-- Evaluates a node in a scope. -/
def Node.eval (b : Bounds) (node : Node) (scope : Nat) (m : Machine) : Option Value × Machine :=
  let handOn : Except Stop Value × Machine → Option Value × Machine
    | (result, m) => (Eval.handOn result, m)
  match node with
  | .program p => p.eval b scope m
  | .statement s => handOn (s.eval (call b.limit b.fuel) scope m)
  | .block k => handOn (k.eval (call b.limit b.fuel) scope m)
  | .expression e => handOn (e.eval (call b.limit b.fuel) scope m)

end Monkey
