import Mathlib.Tactic.Lemma
import Monkey.Proofs.Evaluation.Shadow

/-!
# Lexical scoping

A session evaluates programs one after another in one scope. If no call of it loses anything, it
gives what lexical scoping says: the outcomes are those of the evaluator that never empties the
scope of a call. The condition cannot be dropped. Main statements: `Store.Reached.lexical`, and
`not_lexical_smuggler`, a program that fails although lexical scoping gives it a value.
-/

namespace Monkey

namespace Program

/-- Evaluates a program in a scope, where all calls end in the given way. -/
def evalBy (leave : Leaving) (b : Bounds) (p : Program) (scope : Nat) (m : Machine) :
    Option Value × Machine :=
  match Stmt.evalList (callBy leave b.limit b.fuel) scope .null p.statements m with
  | (result, m) => (Eval.finish result, m)

/-- The outcomes of programs that are run one after another. -/
def outcomes (run : Program → Machine → Option Value × Machine) : List Program → Machine →
    List (Option Value)
  | [], _ => []
  | p :: others, m =>
    match run p m with
    | (outcome, m) => outcome :: outcomes run others m

/-- With the scopes of all calls kept, the programs come to an end one after another, and no call on
the way loses anything. -/
def Lossless (b : Bounds) (scope : Nat) (programs : List Program) (m : Machine) : Prop :=
  none ∉ outcomes (fun p => p.evalBy Machine.keepWatched b scope) programs m

/-- The evaluator ends calls in its own way. -/
lemma eval_eq_evalBy (b : Bounds) (p : Program) (scope : Nat) (m : Machine) :
    p.eval b scope m = p.evalBy Machine.leave b scope m := by
  calc
    _ = (Eval.finish (Stmt.evalList (call b.limit b.fuel) scope .null p.statements m).1,
          (Stmt.evalList (call b.limit b.fuel) scope .null p.statements m).2) := rfl
    _ = _ := by
      rw [call_eq_callBy]
      rfl

/-- If a watched program comes to an end, so does the program with calls that end cautiously. -/
lemma evalBy_of_watched {leave : Leaving} (cautious : leave.Cautious) (b : Bounds) (p : Program)
    {scope : Nat} {w : Moment} (live : w.live scope) {v : Value}
    (ended : (p.evalBy Machine.keepWatched b scope w.kept).1 = some v) :
    (p.evalBy leave b scope w.actual).1 = some v ∧
      ∃ w' : Moment, w'.live scope ∧
        w'.kept = (p.evalBy Machine.keepWatched b scope w.kept).2 ∧
        w'.actual = (p.evalBy leave b scope w.actual).2 := by
  have sim := Stmt.evalList_sim shadow_lawful.coupling (watched_calls cautious b.limit b.fuel)
    p.statements (w := w) (i := scope) ⟨rfl, live⟩ ⟨rfl, shadow.plain w (v := .null) trivial⟩
  rcases sim with ⟨s, stopped, rfl⟩ | ⟨w', le, left, right, outcomes⟩
  · have stopped : (Stmt.evalList (callBy Machine.keepWatched b.limit b.fuel) scope .null
      p.statements w.kept).1 = .error .outOfFuel := stopped
    have ended : Eval.finish (Stmt.evalList (callBy Machine.keepWatched b.limit b.fuel) scope .null
      p.statements w.kept).1 = some v := ended
    rw [stopped] at ended
    cases ended
  · have same := (of_shadow_outcomes outcomes).1
    refine ⟨?_, w', le scope live, left, right⟩
    exact (congrArg Eval.finish same).trans ended

/-- If watched programs come to an end one after another, so do the programs with calls that end
cautiously, with the same outcomes. -/
lemma outcomes_of_watched {leave : Leaving} (cautious : leave.Cautious) (b : Bounds) {scope : Nat}
    (programs : List Program) {w : Moment} (live : w.live scope)
    (lossless : Lossless b scope programs w.kept) :
    outcomes (fun p => p.evalBy leave b scope) programs w.actual =
      outcomes (fun p => p.evalBy Machine.keepWatched b scope) programs w.kept := by
  induction programs generalizing w with
  | nil => rfl
  | cons p others ih =>
    simp only [Lossless, outcomes, List.mem_cons, not_or] at lossless ⊢
    obtain ⟨first, rest⟩ := lossless
    obtain ⟨v, ended⟩ := Option.ne_none_iff_exists'.1 (Ne.symm first)
    obtain ⟨same, w', live', left, right⟩ := evalBy_of_watched cautious b p live ended
    rw [← left] at rest
    rw [ended, same, ← left, ← right, ih live' rest]

end Program

/-- Two machines on one closed store, before a session. -/
def Moment.start (m : Machine) (closed : m.store.Closed) : Moment where
  kept := m
  actual := m
  live i := i < m.store.size
  depth := rfl
  alike := .refl closed

/-- A session in which no call loses anything has the outcomes that lexical scoping says, and none
is missing. Where a call does lose something, a scope that its result still gets to no longer binds
a name that it bound. -/
theorem Store.Reached.lexical {s : Store} (reached : s.Reached) {scope : Nat}
    (inside : scope < s.size) (b : Bounds) (depth : Nat) (programs : List Program)
    (lossless : Program.Lossless b scope programs ⟨s, depth⟩) :
    Program.outcomes (fun p => p.eval b scope) programs ⟨s, depth⟩ =
        Program.outcomes (fun p => p.evalBy Machine.keep b scope) programs ⟨s, depth⟩ ∧
      none ∉ Program.outcomes (fun p => p.eval b scope) programs ⟨s, depth⟩ ∧
      ∀ (m : Machine) (call : Nat) (result : Except Stop Value),
        m.Loses call result ↔ ∃ v name, Machine.caught result = .ok v ∧
          m.store.ReachedFrom v call ∧ name ∈ m.store.names call ∧
          name ∉ (m.leave call result).2.store.names call := by
  have agree : ∀ {leave : Leaving}, leave.Cautious →
      Program.outcomes (fun p => p.evalBy leave b scope) programs ⟨s, depth⟩ =
        Program.outcomes (fun p => p.evalBy Machine.keepWatched b scope) programs ⟨s, depth⟩ :=
    fun cautious => Program.outcomes_of_watched cautious b programs
      (w := .start ⟨s, depth⟩ reached.closed) inside lossless
  -- Both the evaluator and the one that keeps all scopes agree with the one that watches.
  have real : Program.outcomes (fun p => p.eval b scope) programs ⟨s, depth⟩ =
      Program.outcomes (fun p => p.evalBy Machine.keepWatched b scope) programs ⟨s, depth⟩ := by
    rw [← agree Machine.leave_cautious]
    exact congrArg (fun run => Program.outcomes run programs _)
      (funext fun p => funext fun m => p.eval_eq_evalBy b scope m)
  refine ⟨real.trans (agree Machine.keep_cautious).symm, ?_, fun m call result => ?_⟩
  · rw [real]
    exact lossless
  · constructor
    · intro loses
      obtain ⟨v, eq, captured, path, names⟩ := Machine.loses_iff.1 loses
      obtain ⟨name, bound⟩ := List.exists_mem_of_ne_nil _ names
      refine ⟨v, name, eq, path, bound, ?_⟩
      rw [Machine.leave_of_not_captures eq captured, Store.names_clear]
      exact List.not_mem_nil
    · rintro ⟨v, name, eq, path, bound, unbound⟩
      refine ⟨v, call, eq, path, fun unchanged => unbound ?_⟩
      rw [Store.names_congr unchanged]
      exact bound

/-- A function made in the outermost scope: `fn(x) { fn() { x } }`. -/
def constant : Closure where
  identity := 0
  params := [⟨"x", .nowhere⟩]
  body := ⟨[.exprStmt (.function [] ⟨[.exprStmt (.identifier ⟨"x", .nowhere⟩) .nowhere], .nowhere⟩
    .nowhere) .nowhere], .nowhere⟩
  scope := 0

/-- The outermost scope, which binds `f` to `constant`. -/
def constantly : Store := Store.empty.new.1.set 0 "f" (.function constant)

/-- The program `f(5)()`. -/
def useConstant : Program :=
  ⟨[.exprStmt (.call (.call (.identifier ⟨"f", .nowhere⟩) [.literal (.integer 5) .nowhere] .nowhere)
    [] .nowhere) .nowhere]⟩

/-- A call loses nothing if its result is a function made inside its scope, or was made nowhere. -/
lemma Machine.keepWatched_of_home {m : Machine} {scope : Nat} {r : Except Stop Value}
    (h : ∀ v, caught r = .ok v → v.home? = none ∨ m.store.captures v scope = true) :
    m.keepWatched scope r = m.keep scope r := by
  unfold keepWatched
  rw [if_neg]
  intro loses
  obtain ⟨v, eq, captured, ⟨i, home, _⟩, _⟩ := loses_iff.1 loses
  rcases h v eq with none | inside
  · rw [none] at home
    cases home
  · rw [inside] at captured
    cases captured

/-- A call that ends with a function made inside its scope, or with a value made nowhere, is watched
for nothing. -/
lemma callBy_keepWatched {fuel : Nat} {f : Closure} {args : List Value} {m n : Machine}
    {r : Except Stop Value} (arity : f.params.length = args.length)
    (body : f.body.eval (callBy Machine.keepWatched 0 fuel) m.store.size (m.enter f args).2 =
      (r, n))
    (h : ∀ v, Machine.caught r = .ok v →
      v.home? = none ∨ n.store.captures v m.store.size = true) :
    callBy Machine.keepWatched 0 (fuel + 1) (.function f) args m =
      (Machine.caught r, ⟨n.store, n.depth - 1⟩) := by
  rw [callBy_function_apply _ _ _ _ arity, if_neg (fun limited => Nat.lt_irrefl 0 limited.1)]
  show f.runBy Machine.keepWatched (callBy Machine.keepWatched 0 fuel) args m = _
  rw [Closure.runBy_apply, body]
  exact Machine.keepWatched_of_home h

/-- The outset of a session that binds `f` to `constant`. -/
def constantOutset : Machine := ⟨constantly, 0⟩

/-- The body of `f` in the call `f(5)`. -/
def enteredFive : Machine := (constantOutset.enter constant [.integer 5]).2

/-- The function that `f(5)` gives. -/
def constantFive : Closure where
  identity := 0
  params := []
  body := ⟨[.exprStmt (.identifier ⟨"x", .nowhere⟩) .nowhere], .nowhere⟩
  scope := 1

/-- What the call `f(5)` leaves behind. -/
def leftFive : Machine := ⟨enteredFive.store.countClosure, 0⟩

/-- The name `f` is found at the outset. -/
lemma lookup_constant :
    Eval.lookup 0 "f" constantOutset = (.ok (.function constant), constantOutset) := by
  with_unfolding_all rfl

/-- The function that comes out of `f(5)` was made inside the scope of the call. -/
lemma callBy_constant :
    callBy Machine.keepWatched 0 1 (.function constant) [.integer 5] constantOutset =
      (.ok (.function constantFive), leftFive) := by
  apply callBy_keepWatched (m := constantOutset) (r := .ok (.function constantFive))
    (n := ⟨leftFive.store, 1⟩) rfl
  · rfl
  · intro v eq
    cases eq
    exact .inr (by with_unfolding_all rfl)

/-- The number that comes out of `f(5)()` was made nowhere. -/
lemma callBy_constantFive :
    callBy Machine.keepWatched 0 1 (.function constantFive) [] leftFive =
      (.ok (.integer 5), ⟨(leftFive.enter constantFive []).2.store, 0⟩) := by
  apply callBy_keepWatched (m := leftFive) (r := .ok (.integer 5))
    (n := (leftFive.enter constantFive []).2) rfl
  · with_unfolding_all rfl
  · intro v eq
    cases eq
    exact .inl rfl

/-- A session that calls a function with the scope of a finished call around it. -/
theorem Store.Reached.lexical_constantly :
    constantly.Reached ∧ Program.Lossless ⟨0, 1⟩ 0 [useConstant] ⟨constantly, 0⟩ ∧
      Program.outcomes (fun p => p.eval ⟨0, 1⟩ 0) [useConstant] ⟨constantly, 0⟩ =
        Program.outcomes (fun p => p.evalBy Machine.keep ⟨0, 1⟩ 0) [useConstant]
          ⟨constantly, 0⟩ := by
  have reached : constantly.Reached := by
    refine .set "f" (.new .empty) (by decide) fun i home => ?_
    cases home
    decide
  have ended : (useConstant.evalBy Machine.keepWatched ⟨0, 1⟩ 0 constantOutset).1 =
      some (.integer 5) := by
    simp only [Program.evalBy, useConstant, Stmt.evalList, Stmt.eval, Expr.eval, Expr.evalList,
      Eval.bind_apply, Eval.pure_apply, lookup_constant, callBy_constant, callBy_constantFive,
      Value.ofLiteral, Eval.finish]
  have lossless : Program.Lossless ⟨0, 1⟩ 0 [useConstant] constantOutset := by
    simp [Program.Lossless, Program.outcomes, ended]
  exact ⟨reached, lossless, (reached.lexical (by decide) ⟨0, 1⟩ 0 [useConstant] lossless).1⟩

/-- The program `let h = fn(k) { fn() { k() } }; let f = fn(x) { h(fn() { x }) }; f(5)()`. The
function that `f` returns was made in a call of `h`, and gets to the scope of the call of `f` by
what the former binds. -/
def smuggler : Program := ⟨[
  .letStmt ⟨"h", .nowhere⟩ (.function [⟨"k", .nowhere⟩] ⟨[.exprStmt (.function []
    ⟨[.exprStmt (.call (.identifier ⟨"k", .nowhere⟩) [] .nowhere) .nowhere], .nowhere⟩ .nowhere)
    .nowhere], .nowhere⟩ .nowhere) .nowhere,
  .letStmt ⟨"f", .nowhere⟩ (.function [⟨"x", .nowhere⟩] ⟨[.exprStmt (.call
    (.identifier ⟨"h", .nowhere⟩) [.function [] ⟨[.exprStmt (.identifier ⟨"x", .nowhere⟩) .nowhere],
    .nowhere⟩ .nowhere] .nowhere) .nowhere], .nowhere⟩ .nowhere) .nowhere,
  .exprStmt (.call (.call (.identifier ⟨"f", .nowhere⟩) [.literal (.integer 5) .nowhere] .nowhere)
    [] .nowhere) .nowhere]⟩

/-- The program fails on a name that lexical scoping finds. -/
theorem not_lexical_smuggler :
    Store.empty.new.1.Reached ∧
      Program.outcomes (fun p => p.eval ⟨1000, 1000⟩ 0) [smuggler] ⟨Store.empty.new.1, 0⟩ =
        [some (.error (.unknownIdentifier "x"))] ∧
      Program.outcomes (fun p => p.evalBy Machine.keep ⟨1000, 1000⟩ 0) [smuggler]
        ⟨Store.empty.new.1, 0⟩ = [some (.integer 5)] := by
  refine ⟨.new .empty, ?_, ?_⟩
  · with_unfolding_all rfl
  · with_unfolding_all rfl

end Monkey
