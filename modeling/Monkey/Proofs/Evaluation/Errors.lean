import Monkey.Proofs.Evaluation.Data

/-!
# Genuine errors

What an error says is so: the types that it names are types of data, and such that the operator or
the call was refused for them; a name that was not found is in use, either in the program or in a
function that was at hand before. Main statement: `Program.error_genuine`.
-/

namespace Monkey

/-- The types that an error names. -/
def RuntimeError.types : RuntimeError → List ValueType
  | .typeMismatch left _ right => [left, right]
  | .unknownInfixOperator left _ right => [left, right]
  | .unknownPrefixOperator _ operand => [operand]
  | .notAFunction found => [found]
  | _ => []

/-- The error says what can be so under a limit on calls, where the names in use are these. -/
def RuntimeError.Genuine (limit : Nat) (names : String → Prop) : RuntimeError → Prop
  | .unknownIdentifier name => names name
  | .typeMismatch left _ right => left ≠ right
  | .unknownInfixOperator left op right =>
    left = right ∧ left ≠ .integer ∧ op ≠ .eq ∧ op ≠ .ne ∧ (left = .string → op ≠ .add)
  | .unknownPrefixOperator op operand => op = .negate ∧ operand ≠ .integer
  | .notAFunction found => found ≠ .function
  | .arityMismatch expected got => expected ≠ got
  | .divisionByZero => True
  | .callDepthExceeded exceeded => exceeded = limit ∧ 0 < limit

/-- The task at the point is to divide one integer by another, which is zero. -/
def Point.DividesByZero (limit : Nat) (now : Point) : Prop :=
  ∃ left right span n m m',
    now.task = .expr (.binary .div left right span) ∧
    left.eval (call limit now.fuel) now.scope now.machine = (.ok (.integer n), m) ∧
    right.eval (call limit now.fuel) now.scope m = (.ok (.integer 0), m')

section Operators

variable {v v' : Value} {e : RuntimeError}

/-- Data are neither early returns nor errors. -/
lemma Value.IsData.type (h : v.IsData) : v.type ≠ .returned ∧ v.type ≠ .error := by
  cases v with
  | returned | error => cases h
  | _ => exact ⟨nofun, nofun⟩

/-- An operator in front of an operand fails for want of an integer to negate. -/
lemma PrefixOp.apply_eq_error {op : PrefixOp} (h : op.apply v = .error e) :
    op = .negate ∧ v.type ≠ .integer ∧ e = .unknownPrefixOperator .negate v.type := by
  cases op with
  | not => cases h
  | negate =>
    cases v with
    | integer n => cases h
    | _ =>
      cases h
      exact ⟨rfl, nofun, rfl⟩

/-- How an operator fails between two values. -/
inductive InfixOp.Fails (op : InfixOp) (v v' : Value) : RuntimeError → Prop where
  | mismatch :
    v.type ≠ v'.type →
    Fails op v v' (.typeMismatch v.type op v'.type)
  | unknown :
    v.type = v'.type →
    v.type ≠ .integer →
    op ≠ .eq →
    op ≠ .ne →
    (v.type = .string → op ≠ .add) →
    Fails op v v' (.unknownInfixOperator v.type op v'.type)
  | division {n} :
    op = .div →
    v = .integer n →
    v' = .integer 0 →
    Fails op v v' .divisionByZero

/-- An infix operator that gives an error has failed in one of the ways it can. -/
lemma InfixOp.fails_of_apply {op : InfixOp} (h : op.apply v v' = .error e) : op.Fails v v' e := by
  unfold apply at h
  split at h
  · cases op with
    | div =>
      simp only [applyIntegers] at h
      split at h
      · rename_i zero
        cases h
        exact .division rfl rfl (congrArg Value.integer zero)
      · cases h
    | _ => cases h
  · cases op with
    | add | eq | ne => cases h
    | _ =>
      cases h
      exact .unknown rfl ValueType.noConfusion (by decide) (by decide) fun _ => by decide
  · rename_i notIntegers notStrings
    split at h
    · rename_i differ
      cases h
      exact .mismatch differ
    · rename_i alike
      have alike : v.type = v'.type := not_not.1 alike
      have notInteger : v.type ≠ .integer := fun type => by
        obtain ⟨a, rfl⟩ := Value.eq_integer type
        obtain ⟨b, rfl⟩ := Value.eq_integer (alike ▸ type)
        exact notIntegers a b rfl rfl
      have notString : v.type ≠ .string := fun type => by
        obtain ⟨a, rfl⟩ := Value.eq_string type
        obtain ⟨b, rfl⟩ := Value.eq_string (alike ▸ type)
        exact notStrings a b rfl rfl
      cases op with
      | eq | ne => cases h
      | _ =>
        cases h
        exact .unknown alike notInteger (by decide) (by decide) fun type => absurd type notString

/-- An infix operator fails with a genuine error. -/
lemma InfixOp.Fails.genuine {op : InfixOp} {limit : Nat} {names : String → Prop}
    (h : op.Fails v v' e) : e.Genuine limit names := by
  cases h with
  | mismatch differ => exact differ
  | unknown alike notInteger notEq notNe notAdd => exact ⟨alike, notInteger, notEq, notNe, notAdd⟩
  | division => exact trivial

/-- An infix operator that fails names the types of its operands. -/
lemma InfixOp.Fails.types {op : InfixOp} (h : op.Fails v v' e) :
    ∀ t ∈ e.types, t = v.type ∨ t = v'.type := by
  cases h <;> simp [RuntimeError.types]

end Operators

/-- The kind of data whose functions use certain names only. -/
def Value.Kind.speaking (names : String → Prop) : Value.Kind where
  holds v := v.IsData ∧ ∀ f, v = .function f → ∀ name ∈ f.body.uses, names name
  names := names
  plain plain := ⟨plain.isData, fun f eq => by
    subst eq
    cases plain⟩
  function f := ⟨fun h => h.2 f rfl, fun h => ⟨trivial, fun g eq => by
    cases eq
    exact h⟩⟩

section Raising

variable {limit : Nat} {names : String → Prop} {w : Precinct (.speaking names)} {now : Point}
  {e : RuntimeError}

/-- Where only data is met, the value of an expression that the task is made up of is data. -/
lemma Point.Suits.isData {a : Expr} {i : Nat} {m m' : Machine} {n : Nat} {v : Value}
    (h : now.Suits w) (starts : Starts limit now ⟨.expr a, i, m, n⟩)
    (ok : a.eval (call limit n) i m = (.ok v, m')) : v.IsData := by
  have run : (Point.run limit ⟨.expr a, i, m, n⟩).1 = .ok [v] :=
    congrArg Prod.fst (Eval.listed_eq_ok_iff.2 ok)
  exact ((starts.suits h).values run v (List.mem_singleton_self v)).1

/-- An error that is raised where only data and names in use are met is genuine, and names types of
data only. -/
lemma Raises.genuine (h : Raises limit now e) (suits : now.Suits w) :
    e.Genuine limit names ∧ ∀ t ∈ e.types, t ≠ .returned ∧ t ≠ .error := by
  cases h with
  | @unknown x i m n none =>
    obtain ⟨_, _, _, _, spoken⟩ := suits
    exact ⟨spoken x.name (List.mem_singleton_self _), nofun⟩
  | prefixOp ok refused =>
    obtain ⟨rfl, notInteger, rfl⟩ := PrefixOp.apply_eq_error refused
    have data := suits.isData (.part .operand) ok
    exact ⟨⟨rfl, notInteger⟩, List.forall_mem_singleton.2 data.type⟩
  | infixOp ok ok' refused =>
    have fails := InfixOp.fails_of_apply refused
    have left := suits.isData (.part .left) ok
    have right := suits.isData (.part (.right ok)) ok'
    refine ⟨fails.genuine, fun t mem => ?_⟩
    rcases fails.types t mem with rfl | rfl
    · exact left.type
    · exact right.type
  | @notAFunction v args i m n other =>
    obtain ⟨_, _, _, _, callee, _⟩ := suits
    refine ⟨fun type => ?_, List.forall_mem_singleton.2 callee.1.1.type⟩
    obtain ⟨f, rfl⟩ := Value.eq_function type
    exact other f rfl
  | arityMismatch differ => exact ⟨differ, nofun⟩
  | callDepthExceeded _ pos _ => exact ⟨⟨rfl, pos⟩, nofun⟩

/-- Only a division of integers raises the error about a division. -/
lemma Raises.dividesByZero (h : Raises limit now .divisionByZero) : now.DividesByZero limit := by
  cases h with
  | prefixOp _ refused => cases (PrefixOp.apply_eq_error refused).2.2
  | infixOp ok ok' refused =>
    cases InfixOp.fails_of_apply refused with
    | division div left right =>
      subst div left right
      exact ⟨_, _, _, _, _, _, rfl, ok, ok'⟩

end Raising

/-- Every error is genuine. Let all values that are met from a scope be data. If a program ends with
an error in the scope, the error names types of data only, and these are such that what it says is
so; a name that it did not find is used by the program, or by a function that is met from the scope.
It was raised at a point of the course of the evaluation, and a division by zero was there to be
done if it is about that. -/
theorem Program.error_genuine (b : Bounds) (p : Program) {scope : Nat} {m : Machine}
    {e : RuntimeError} (data : ∀ v, m.store.Meets scope v → v.IsData)
    (failed : (p.eval b scope m).1 = some (.error e)) :
    e.Genuine b.limit (fun name => name ∈ p.uses ∨
      ∃ f, m.store.Meets scope (.function f) ∧ name ∈ f.body.uses) ∧
    (∀ t ∈ e.types, t ≠ .returned ∧ t ≠ .error) ∧
    ∃ now, ((Node.program p).start scope m b.fuel).ComesBy b.limit now ∧ Raises b.limit now e ∧
      (e = .divisionByZero → now.DividesByZero b.limit) := by
  let names (name : String) : Prop := name ∈ p.uses ∨
    ∃ f, m.store.Meets scope (.function f) ∧ name ∈ f.body.uses
  let w : Precinct (.speaking names) := ⟨m, _, .of_meets_new fun v met =>
    ⟨data v met, fun f eq name mem => .inr ⟨f, eq ▸ met, mem⟩⟩⟩
  have suits : w.Suits (Node.program p).task := w.suits_of_uses _ fun _ => .inl
  obtain ⟨given, handed⟩ := w.statements_data And.left b p (.inl .refl) suits
  have stopped := ((Eval.finish_data given handed).2 e).1 failed
  have fails : (((Node.program p).start scope m b.fuel).run b.limit).1 = .error (.failed e) :=
    Eval.listed_eq_error_iff.2 stopped
  obtain ⟨now, path, raised⟩ := Point.exists_raises fails
  obtain ⟨genuine, types⟩ :=
    raised.genuine (path.suits (w := w) ⟨w, fun _ => id, rfl, .inl .refl, suits⟩)
  refine ⟨genuine, types, now, path, raised, ?_⟩
  rintro rfl
  exact raised.dividesByZero

/-- The program `let q = fn(a, b) { a / b }; q(1, 0)`. -/
def Program.quotient : Program := ⟨[
  .letStmt ⟨"q", .nowhere⟩ (.function [⟨"a", .nowhere⟩, ⟨"b", .nowhere⟩] ⟨[
    .exprStmt (.binary .div (.identifier ⟨"a", .nowhere⟩) (.identifier ⟨"b", .nowhere⟩) .nowhere)
      .nowhere], .nowhere⟩ .nowhere) .nowhere,
  .exprStmt (.call (.identifier ⟨"q", .nowhere⟩) [.literal (.integer 1) .nowhere,
    .literal (.integer 0) .nowhere] .nowhere) .nowhere]⟩

/-- Its evaluation comes by a division of integers by zero, in the call. -/
theorem Program.error_genuine_quotient :
    (∀ v, Store.empty.new.1.Meets 0 v → v.IsData) ∧
      (quotient.eval ⟨4, 4⟩ 0 ⟨Store.empty.new.1, 0⟩).1 = some (.error .divisionByZero) ∧
      ∃ now, ((Node.program quotient).start 0 ⟨Store.empty.new.1, 0⟩ 4).ComesBy 4 now ∧
        now.DividesByZero 4 := by
  have data : ∀ v, Store.empty.new.1.Meets 0 v → v.IsData :=
    fun v met => absurd met (Store.not_meets_new v)
  have failed : (quotient.eval ⟨4, 4⟩ 0 ⟨Store.empty.new.1, 0⟩).1 =
      some (.error .divisionByZero) := by
    with_unfolding_all rfl
  obtain ⟨_, _, now, path, _, division⟩ :=
    error_genuine (m := ⟨Store.empty.new.1, 0⟩) ⟨4, 4⟩ quotient data failed
  exact ⟨data, failed, now, path, division rfl⟩

end Monkey
