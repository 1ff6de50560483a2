import Monkey.Store
import Monkey.Value.Operators

/-!
# Evaluation

Expressions are evaluated in a scope of a machine, which holds the store and counts the calls in
progress. An evaluation gives a value or stops early: by a `return`, which the enclosing call or
program turns into its value, by an error, or because more calls would have to be in progress at
once than its fuel allows.

Syntax trees are evaluated by recursion on the tree, given a way to call functions (`Caller`); calls
are evaluated by recursion on the fuel. A machine with a limit on calls needs no more fuel than the
limit, so it never runs out; without a limit a program may.

A call opens a scope inside the one the function was made in. When it returns, the scope is emptied,
unless the value it returns is a function made inside that scope.
-/

namespace Monkey

/-- The store, and how many calls are in progress. -/
structure Machine where
  store : Store
  depth : Nat

/-- Why an evaluation stops before its end. -/
inductive Stop where
  /-- A `return` with its value. -/
  | returned (value : Value)
  | failed (error : RuntimeError)
  | outOfFuel

/-- A computation on a machine that may stop. What it did to the machine before stays done. -/
abbrev Eval := ExceptT Stop (StateM Machine)

/-- A way to call a value with arguments. -/
abbrev Caller := Value → List Value → Eval Value

namespace Eval

/-- Stops with an error. -/
def fail {α : Type} (error : RuntimeError) : Eval α := throw (.failed error)

/-- The result of an operator. -/
def ofExcept {α : Type} : Except RuntimeError α → Eval α
  | .ok value => pure value
  | .error error => fail error

/-- The value of a name in a scope. -/
def lookup (scope : Nat) (name : String) : Eval Value := do
  match (← get).store.get? scope name with
  | some value => pure value
  | none => fail (.unknownIdentifier name)

/-- Binds a name in a scope. -/
def assign (scope : Nat) (name : String) (value : Value) : Eval Unit :=
  modify fun
    | ⟨store, depth⟩ => ⟨store.set scope name value, depth⟩

/-- A new function made in a scope. -/
def makeClosure (params : List Identifier) (body : Block) (scope : Nat) : Eval Value := do
  let identity := (← get).store.closures
  modify fun
    | ⟨store, depth⟩ => ⟨store.countClosure, depth⟩
  pure (.function ⟨identity, params, body, scope⟩)

end Eval

mutual

/-- Evaluates an expression in a scope. Operands and arguments are evaluated from left to right. -/
def Expr.eval (call : Caller) (scope : Nat) : Expr → Eval Value
  | .literal value _ => pure (.ofLiteral value)
  | .identifier x => Eval.lookup scope x.name
  | .unary op operand _ => do
    let value ← operand.eval call scope
    Eval.ofExcept (op.apply value)
  | .binary op left right _ => do
    let a ← left.eval call scope
    let b ← right.eval call scope
    Eval.ofExcept (op.apply a b)
  | .conditional condition consequence none _ => do
    let holds ← condition.eval call scope
    if holds.isTruthy then consequence.eval call scope else pure .null
  | .conditional condition consequence (some alternative) _ => do
    let holds ← condition.eval call scope
    if holds.isTruthy then consequence.eval call scope else alternative.eval call scope
  | .function params body _ => Eval.makeClosure params body scope
  | .call callee args _ => do
    let f ← callee.eval call scope
    let values ← Expr.evalList call scope args
    call f values

/-- Evaluates expressions from left to right. -/
def Expr.evalList (call : Caller) (scope : Nat) : List Expr → Eval (List Value)
  | [] => pure []
  | e :: others => do
    let value ← e.eval call scope
    let values ← Expr.evalList call scope others
    pure (value :: values)

/-- Executes a statement in a scope. The value of a binding is null. -/
def Stmt.eval (call : Caller) (scope : Nat) : Stmt → Eval Value
  | .letStmt x value _ => do
    let v ← value.eval call scope
    Eval.assign scope x.name v
    pure .null
  | .returnStmt value _ => do
    let v ← value.eval call scope
    throw (.returned v)
  | .exprStmt value _ => value.eval call scope

/-- Executes statements in order, with the value of the last one; `last` if there is none. -/
def Stmt.evalList (call : Caller) (scope : Nat) (last : Value) : List Stmt → Eval Value
  | [] => pure last
  | s :: others => do
    let value ← s.eval call scope
    Stmt.evalList call scope value others

/-- Executes a block. It opens no scope of its own. -/
def Block.eval (call : Caller) (scope : Nat) : Block → Eval Value
  | ⟨statements, _⟩ => Stmt.evalList call scope .null statements

end

namespace Machine

/-- Binds parameters to arguments in a scope, the later of two equal parameters last. -/
def bindParams (store : Store) (scope : Nat) : List Identifier → List Value → Store
  | x :: params, v :: args => bindParams (store.set scope x.name v) scope params args
  | _, _ => store

/-- Begins a call: opens its scope with the arguments in it. -/
def enter : Machine → (f : Closure) → (args : List Value) → Nat × Machine
  | ⟨store, depth⟩, f, args =>
    match store.enclosed f.scope with
    | (store, scope) => (scope, ⟨bindParams store scope f.params args, depth + 1⟩)

/-- What a call gives when its body ends this way: a `return` ends with the body. -/
def caught : Except Stop Value → Except Stop Value
  | .error (.returned value) => .ok value
  | result => result

/-- Whether something still needs the scope of a call that ends with this result: a function made
inside the scope. -/
def escapes (store : Store) (scope : Nat) : Except Stop Value → Bool
  | .ok value => store.captures value scope
  | .error _ => false

/-- Ends a call. Its scope is emptied unless the result still needs it. -/
def leave : Machine → (scope : Nat) → (result : Except Stop Value) → Except Stop Value × Machine
  | ⟨store, depth⟩, scope, result =>
    let result := caught result
    (result, ⟨if escapes store scope result then store else store.clear scope, depth - 1⟩)

end Machine

/-- Evaluates the body of a function as a call with the given arguments. -/
def Closure.run (call : Caller) (f : Closure) (args : List Value) : Eval Value := fun m =>
  match m.enter f args with
  | (scope, m) =>
    match f.body.eval call scope m with
    | (result, m) => m.leave scope result

/-- Calls a value when at most `limit` calls may be in progress at once, or any number if `limit` is
0. The fuel bounds how many more calls may be begun inside this one. -/
def call (limit : Nat) : (fuel : Nat) → Caller
  | fuel, .function f, args => do
    if f.params.length ≠ args.length then
      Eval.fail (.arityMismatch f.params.length args.length)
    else if 0 < limit ∧ limit ≤ (← get).depth then
      Eval.fail (.callDepthExceeded limit)
    else
      match fuel with
      | 0 => throw .outOfFuel
      | fuel + 1 => f.run (call limit fuel) args
  | _, callee, _ => Eval.fail (.notAFunction callee.type)

end Monkey
