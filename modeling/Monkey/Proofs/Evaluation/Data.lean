import Mathlib.Tactic.Lemma
import Monkey.Proofs.Evaluation.Course
import Monkey.Proofs.Evaluation.Kind

/-!
# What never becomes data

A `return` on its way out and an error that ended a program can be handed out as values, but no
evaluation gets to see such a value: it binds none, passes none to a function, applies no operator
to one and decides nothing by one. Where an evaluation meets data only, it keeps to data at every
point of its course. Main statements: `Point.ComesBy.suits`, for any kind of values, and
`Node.eval_data`.
-/

namespace Monkey

section Course

variable {K : Value.Kind} {limit : Nat}

/-- At the point only values of the kind are met: it is live, and so is all that was. -/
def Point.Suits (w : Precinct K) (now : Point) : Prop :=
  ∃ w' : Precinct K, (∀ i, w.live i → w'.live i) ∧ w'.machine = now.machine ∧
    w'.live now.scope ∧ w'.Suits now.task

/-- A point suits a precinct exactly if it stands in the agreement. -/
lemma Point.suits_iff {w : Precinct K} {now : Point} :
    now.Suits w ↔ (keeping K).Stands K.names w now := by
  refine exists_congr fun w' => ?_
  rw [Precinct.suits_iff]
  exact Iff.rfl

/-- From where only values of the kind are met an evaluation goes on to where this is so again. -/
lemma Starts.suits {w : Precinct K} {now next : Point} (starts : Starts limit now next)
    (h : now.Suits w) : next.Suits w :=
  Point.suits_iff.2 ((keeping_alone K limit).starts starts (Point.suits_iff.1 h))

/-- An evaluation that begins where only values of the kind are met comes by such points only. -/
theorem Point.ComesBy.suits {w : Precinct K} {now next : Point} (path : now.ComesBy limit next)
    (h : now.Suits w) : next.Suits w :=
  Point.suits_iff.2 ((keeping_alone K limit).comesBy path (Point.suits_iff.1 h))

/-- What the task at such a point comes to is of the kind. -/
lemma Point.Suits.values {w : Precinct K} {now : Point} (h : now.Suits w) {vs : List Value}
    (run : (now.run limit).1 = .ok vs) : ∀ v ∈ vs, K.holds v := by
  obtain ⟨w', _, machine, live, suits⟩ := h
  obtain ⟨_, _, _, values, _⟩ := keeping_task limit now.fuel now.task w' live suits
  rw [machine] at values
  exact fun v mem => (values vs run v mem).1

end Course

/-- A call does not hand on a `return`, neither one of its body nor another. -/
lemma call_ne_returned (limit fuel : Nat) (callee : Value) (args : List Value) (m : Machine)
    (v : Value) : (call limit fuel callee args m).1 ≠ .error (.returned v) := by
  rw [call_eq_callBy]
  intro returned
  by_cases isFunction : ∃ f, callee = .function f
  · obtain ⟨f, rfl⟩ := isFunction
    by_cases arity : f.params.length = args.length
    · rw [callBy_function_apply Machine.leave limit fuel m arity] at returned
      split at returned
      · cases returned
      · cases fuel with
        | zero => cases returned
        | succ fuel => exact (Machine.caught_eq_error_iff.1 returned).2 v rfl
    · rw [callBy_arity_apply Machine.leave limit fuel m arity] at returned
      cases returned
  · have other : ∀ f, callee ≠ .function f := fun f eq => isFunction ⟨f, eq⟩
    rw [callBy_other_apply Machine.leave limit fuel args m other] at returned
    cases returned

/-- The value is neither a `return` on its way out nor an error that ended a program. -/
def Value.IsData : Value → Prop
  | .returned _ | .error _ => False
  | _ => True

/-- A plain value is data. -/
lemma Value.IsPlain.isData {v : Value} (plain : v.IsPlain) : v.IsData := by
  cases v with
  | returned | error => cases plain
  | _ => exact trivial

/-- The kind of values that are data. -/
def Value.Kind.data : Value.Kind where
  holds := Value.IsData
  names _ := True
  plain := Value.IsPlain.isData
  function _ := iff_of_true trivial fun _ _ => trivial

/-- Every node suits a precinct of data. -/
lemma Precinct.suits_task (w : Precinct .data) (node : Node) : w.Suits node.task :=
  w.suits_of_uses node fun _ _ => trivial

/-- The value with one layer of `return` taken off, if it has one. -/
def Value.unwrapped : Value → Value
  | .returned v => v
  | v => v

/-- If all values that are met from a scope are of a kind, this stays so when all places that no
scope stands at yet are counted in. -/
lemma Store.Keeps.of_meets_new {s : Store} {K : Value.Kind} {i : Nat}
    (h : ∀ v, s.Meets i v → K.holds v) : s.Keeps K (fun j => s.Reaches i j ∨ s.size ≤ j) where
  steps j k start link := by
    rcases start with path | new
    · exact .inl (.tail path link)
    · exact absurd link.lt_size (Nat.not_lt.2 new)
  bound j sc n v start found entry := by
    rcases start with path | new
    · exact h v ⟨j, sc, n, path, found, entry⟩
    · exact absurd (lt_size_of_scope? found) (Nat.not_lt.2 new)

/-- What a program gives when its statements end with data or hand out data only: never a `return`,
and an error exactly if one stopped them. -/
lemma Eval.finish_data {r : Except Stop Value} (given : ∀ v, r = .ok v → v.IsData)
    (handed : ∀ v, r = .error (.returned v) → v.IsData) :
    (∀ v, Eval.finish r ≠ some (.returned v)) ∧
      ∀ e, Eval.finish r = some (.error e) ↔ r = .error (.failed e) := by
  obtain (v | e | _) | v := r
  · have := handed v rfl
    cases v <;> simp_all [Eval.finish, Value.IsData]
  · simp [Eval.finish]
  · simp [Eval.finish]
  · have := given v rfl
    cases v <;> simp_all [Eval.finish, Value.IsData]

/-- Where only data is met, the statements of a program end with data and hand out data only. -/
lemma Precinct.statements_data {K : Value.Kind} (isData : ∀ {v}, K.holds v → v.IsData)
    (w : Precinct K) (b : Bounds) (p : Program) {scope : Nat} (live : w.live scope)
    (suits : w.Suits (Node.program p).task) :
    (∀ v, (Stmt.evalList (call b.limit b.fuel) scope .null p.statements w.machine).1 = .ok v →
      v.IsData) ∧
    ∀ v, (Stmt.evalList (call b.limit b.fuel) scope .null p.statements w.machine).1 =
      .error (.returned v) → v.IsData := by
  obtain ⟨_, _, _, value, stop⟩ := (keeping_alone K b.limit).node b.fuel (.program p) (w := w)
    live (Precinct.suits_iff.1 suits)
  exact ⟨fun v run => isData (value v run).1, fun v run => isData (stop _ run v rfl).1⟩

/-- Where the evaluation of a node begins. -/
def Node.start (node : Node) (scope : Nat) (m : Machine) (fuel : Nat) : Point :=
  ⟨node.task, scope, m, fuel⟩

/-- A program gives what its statements give as a block, with the layer of a `return` taken off. -/
lemma Program.eval_eq_block (b : Bounds) (p : Program) (span : Span) {scope : Nat} {m : Machine}
    (data : ∀ v, (Stmt.evalList (call b.limit b.fuel) scope .null p.statements m).1 = .ok v →
      v.IsData) :
    p.eval b scope m =
      ((Node.block ⟨p.statements, span⟩).eval b scope m).map (Option.map Value.unwrapped) id := by
  simp only [Program.eval, Node.eval, Block.eval]
  generalize Stmt.evalList (call b.limit b.fuel) scope .null p.statements m = r at data
  obtain ⟨(v | e | _) | v, m'⟩ := r
  · rfl
  · rfl
  · rfl
  · have isData := data v rfl
    cases v with
    | returned | error => cases isData
    | _ => rfl

/-- What never becomes data. Let every value that is met from a scope be data. Then, whatever comes
of the evaluation of a node in the scope, all that is bound afterwards is data, but for scopes out
of reach that the evaluation left as they were; at every point that it comes by, the values of
operands, conditions and arguments are data, and a call is made of data and hands on no `return`.
And a program gives an error exactly if an error stopped its statements, never a `return`, and
always what its statements give as a block with the layer of a `return` taken off. -/
theorem Node.eval_data (b : Bounds) (node : Node) {scope : Nat} {m : Machine}
    (data : ∀ v, m.store.Meets scope v → v.IsData) :
    (∀ i sc n v, (node.eval b scope m).2.store.scope? i = some sc → (n, v) ∈ sc.bindings.entries →
      v.IsData ∨ ¬ m.store.Reaches scope i ∧ m.store.scope? i = some sc) ∧
    (∀ now, (node.start scope m b.fuel).ComesBy b.limit now →
      (∀ vs, (now.run b.limit).1 = .ok vs → ∀ v ∈ vs, v.IsData) ∧
      ∀ callee args, now.task = .call callee args →
        callee.IsData ∧ (∀ v ∈ args, v.IsData) ∧
          ∀ v, (now.run b.limit).1 ≠ .error (.returned v)) ∧
    ∀ (p : Program) (span : Span),
      (∀ v, (p.eval b scope m).1 ≠ some (.returned v)) ∧
      (∀ e, (p.eval b scope m).1 = some (.error e) ↔
        (Stmt.evalList (call b.limit b.fuel) scope .null p.statements m).1 = .error (.failed e)) ∧
      p.eval b scope m =
        ((Node.block ⟨p.statements, span⟩).eval b scope m).map (Option.map Value.unwrapped) id := by
  let w : Precinct .data := ⟨m, _, .of_meets_new data⟩
  have start (node : Node) : (node.start scope m b.fuel).Suits w :=
    ⟨w, fun _ => id, rfl, .inl .refl, w.suits_task node⟩
  refine ⟨fun i sc n v found entry => ?_, fun now path => ⟨fun vs run => ?_, ?_⟩, fun p span => ?_⟩
  · obtain ⟨w', le, machine, _⟩ :=
      keeping_task b.limit b.fuel node.task w (.inl .refl) (w.suits_task node)
    rw [Node.run_task, Eval.listed_snd] at machine
    -- A scope of the precinct keeps to data; any other is as it was before the run.
    by_cases live : m.store.Reaches scope i ∨ m.store.size ≤ i
    · rw [Node.eval_eq, ← machine] at found
      exact .inl (w'.keeps.bound i sc n v (le i live) found entry)
    · obtain ⟨apart, old⟩ := not_or.1 live
      refine .inr ⟨apart, ?_⟩
      rw [← found]
      refine ((node.eval_grows b scope m).kept i (Nat.not_le.1 old) ?_).symm
      rintro rfl
      exact apart .refl
  · exact (path.suits (start node)).values run
  · intro callee args task
    obtain ⟨w', _, _, _, suits⟩ := path.suits (start node)
    rw [task] at suits
    refine ⟨suits.1.1, fun v mem => (suits.2 v mem).1, fun v returned => ?_⟩
    rw [Point.run, task] at returned
    exact call_ne_returned _ _ _ _ _ v (Eval.listed_eq_error_iff.1 returned)
  · obtain ⟨given, handed⟩ := w.statements_data id b p (.inl .refl) (w.suits_task _)
    exact ⟨(Eval.finish_data given handed).1, (Eval.finish_data given handed).2,
      Program.eval_eq_block b p span given⟩

/-- The program `let f = fn(n) { let m = 1 + if (n) { return n }; m }; f(true) + 2`. -/
def Program.earlyReturn : Program := ⟨[
  .letStmt ⟨"f", .nowhere⟩ (.function [⟨"n", .nowhere⟩] ⟨[
    .letStmt ⟨"m", .nowhere⟩ (.binary .add (.literal (.integer 1) .nowhere)
      (.conditional (.identifier ⟨"n", .nowhere⟩)
        ⟨[.returnStmt (.identifier ⟨"n", .nowhere⟩) .nowhere], .nowhere⟩ none .nowhere)
      .nowhere) .nowhere,
    .exprStmt (.identifier ⟨"m", .nowhere⟩) .nowhere], .nowhere⟩ .nowhere) .nowhere,
  .exprStmt (.binary .add (.call (.identifier ⟨"f", .nowhere⟩)
    [.literal (.boolean true) .nowhere] .nowhere) (.literal (.integer 2) .nowhere) .nowhere)
    .nowhere]⟩

/-- The `return` in an operand ends the call with the boolean, which `+` does not take; the program
was then stopped by an error. -/
theorem Node.eval_data_earlyReturn :
    (∀ v, Store.empty.new.1.Meets 0 v → v.IsData) ∧
      (Program.earlyReturn.eval ⟨0, 9⟩ 0 ⟨Store.empty.new.1, 0⟩).1 =
        some (.error (.typeMismatch .boolean .add .integer)) ∧
      (Stmt.evalList (call 0 9) 0 .null Program.earlyReturn.statements
        ⟨Store.empty.new.1, 0⟩).1 = .error (.failed (.typeMismatch .boolean .add .integer)) := by
  have data : ∀ v, Store.empty.new.1.Meets 0 v → v.IsData :=
    fun v met => absurd met (Store.not_meets_new v)
  have stopped : (Program.earlyReturn.eval ⟨0, 9⟩ 0 ⟨Store.empty.new.1, 0⟩).1 =
      some (.error (.typeMismatch .boolean .add .integer)) := by
    with_unfolding_all rfl
  obtain ⟨_, _, whole⟩ := Node.eval_data (m := ⟨Store.empty.new.1, 0⟩) ⟨0, 9⟩
    (.program .earlyReturn) data
  exact ⟨data, stopped, ((whole .earlyReturn .nowhere).2.1 _).1 stopped⟩

end Monkey
