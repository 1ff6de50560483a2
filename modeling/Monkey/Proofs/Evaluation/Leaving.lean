import Monkey.Proofs.Evaluation.Agreement
import Monkey.Proofs.Store.Access

/-!
# Ways to end a call

When a call ends, something is done about its scope. The evaluator empties it unless the result is a
function made inside it; to compare this with other ways to end a call, evaluation is repeated here
with the ending as a parameter. Main statements: `call_eq_callBy`, the evaluator is the instance
with its own ending, `Agreement.calls`, the induction on fuel for evaluations side by side, and
`Agreement.LawfulCalls.calls`, the same for an evaluation by itself.
-/

namespace Monkey

/-- A way to end a call: the machine, the scope of the call and what its body came to give the
result of the call and the machine after it. -/
abbrev Leaving := Machine → Nat → Except Stop Value → Except Stop Value × Machine

/-- Evaluates the body of a function as a call that ends in the given way. -/
def Closure.runBy (leave : Leaving) (call : Caller) (f : Closure) (args : List Value) :
    Eval Value := fun m =>
  match m.enter f args with
  | (scope, m) =>
    match f.body.eval call scope m with
    | (result, m) => leave m scope result

/-- Calls a value, where all calls end in the given way. -/
def callBy (leave : Leaving) (limit : Nat) : (fuel : Nat) → Caller
  | fuel, .function f, args => do
    if f.params.length ≠ args.length then
      Eval.fail (.arityMismatch f.params.length args.length)
    else if 0 < limit ∧ limit ≤ (← get).depth then
      Eval.fail (.callDepthExceeded limit)
    else
      match fuel with
      | 0 => throw .outOfFuel
      | fuel + 1 => f.runBy leave (callBy leave limit fuel) args
  | _, callee, _ => Eval.fail (.notAFunction callee.type)

/-- A call begins with a new scope inside that of the function, where the parameters are bound. -/
lemma Machine.enter_eq (m : Machine) (f : Closure) (args : List Value) :
    m.enter f args = (m.store.size,
      ⟨bindParams (m.store.push (some f.scope)).1 m.store.size f.params args, m.depth + 1⟩) := rfl

/-- What binding a parameter to an argument keeps, beginning a call keeps. -/
lemma Machine.bindParams_keeps {P : Store → Prop} {scope : Nat} {args : List Value} {s : Store}
    (params : List Identifier) (step : ∀ s name v, v ∈ args → P s → P (s.set scope name v))
    (start : P s) : P (bindParams s scope params args) := by
  induction params generalizing args s with
  | nil => exact start
  | cons x params ih =>
    cases args with
    | nil => exact start
    | cons v args =>
      exact ih (fun s name v mem => step s name v (List.mem_cons_of_mem _ mem))
        (step s x.name v List.mem_cons_self start)

/-- A function is run by running its body, and leaving. -/
lemma Closure.runBy_apply (leave : Leaving) (call : Caller) (f : Closure) (args : List Value)
    (m : Machine) :
    f.runBy leave call args m =
      leave (f.body.eval call m.store.size (m.enter f args).2).2 m.store.size
        (f.body.eval call m.store.size (m.enter f args).2).1 := rfl

/-- The evaluator's calls end in its own way. -/
theorem call_eq_callBy (limit fuel : Nat) : call limit fuel = callBy Machine.leave limit fuel := by
  induction fuel with
  | zero =>
    funext v args
    cases v <;> rfl
  | succ fuel ih =>
    funext v args
    cases v with
    | function f =>
      simp only [call, callBy, ih]
      rfl
    | _ => rfl

/-- A way to end a call that does no more than catch a `return`, give up, and empty the scope of the
call. -/
structure Leaving.Modest (leave : Leaving) : Prop where
  result : ∀ m scope r,
    (leave m scope r).1 = Machine.caught r ∨ (leave m scope r).1 = .error .outOfFuel
  store : ∀ m scope r,
    (leave m scope r).2.store = m.store ∨ (leave m scope r).2.store = m.store.clear scope

/-- A value that a call gives is one that its body came to. -/
lemma Leaving.Modest.value {leave : Leaving} (modest : leave.Modest) {m : Machine} {scope : Nat}
    {r : Except Stop Value} {v : Value}
    (h : (leave m scope r).1 = .ok v ∨ (leave m scope r).1 = .error (.returned v)) :
    r = .ok v ∨ r = .error (.returned v) := by
  rcases modest.result m scope r with caught | gaveUp
  · rw [caught] at h
    cases r with
    | ok v' => exact h
    | error s =>
      cases s with
      | returned v' =>
        rcases h with h | h
        · cases h
          exact .inr rfl
        · cases h
      | _ => exact h
  · rw [gaveUp] at h
    rcases h with h | h
    · cases h
    · cases h

/-- The way the evaluator ends a call is modest. -/
lemma Machine.leave_modest : Leaving.Modest Machine.leave where
  result _ _ _ := .inl rfl
  store m scope r := by
    simp only [leave]
    split
    · exact .inl rfl
    · exact .inr rfl

/-- A function with enough arguments is run, unless too many calls are in progress or fuel is out.
-/
lemma callBy_function_apply (leave : Leaving) (limit fuel : Nat) {f : Closure} {args : List Value}
    (m : Machine) (arity : f.params.length = args.length) :
    callBy leave limit fuel (.function f) args m =
      if 0 < limit ∧ limit ≤ m.depth then (.error (.failed (.callDepthExceeded limit)), m)
      else
        match fuel with
        | 0 => (.error .outOfFuel, m)
        | fuel + 1 => f.runBy leave (callBy leave limit fuel) args m := by
  cases fuel <;>
  · simp only [callBy, arity, ne_eq, not_true_eq_false, if_false]
    rw [Eval.bind_apply]
    simp only [get, getThe, MonadStateOf.get, liftM, monadLift, MonadLift.monadLift, ExceptT.lift,
      ExceptT.mk, StateT.get, Functor.map, StateT.map, pure, bind]
    split <;> rfl

/-- A function with too few or too many arguments is refused. -/
lemma callBy_arity_apply (leave : Leaving) (limit fuel : Nat) {f : Closure} {args : List Value}
    (m : Machine) (arity : f.params.length ≠ args.length) :
    callBy leave limit fuel (.function f) args m =
      (.error (.failed (.arityMismatch f.params.length args.length)), m) := by
  cases fuel <;>
  · simp only [callBy, arity, ne_eq, not_false_eq_true, if_true]
    rfl

/-- Anything but a function is refused. -/
lemma callBy_other_apply (leave : Leaving) (limit fuel : Nat) {v : Value} (args : List Value)
    (m : Machine) (other : ∀ f, v ≠ .function f) :
    callBy leave limit fuel v args m = (.error (.failed (.notAFunction v.type)), m) := by
  cases v with
  | function f => exact absurd rfl (other f)
  | _ => cases fuel <;> rfl

/-- A call is refused on the spot, or it evaluates the body of a function. -/
lemma callBy_cases (leave : Leaving) (limit fuel : Nat) (v : Value) (args : List Value)
    (m : Machine) :
    (∃ s, callBy leave limit fuel v args m = (.error s, m)) ∨
      ∃ f fuel', v = .function f ∧ fuel = fuel' + 1 ∧
        callBy leave limit fuel v args m = f.runBy leave (callBy leave limit fuel') args m := by
  by_cases isFunction : ∃ f, v = .function f
  · obtain ⟨f, rfl⟩ := isFunction
    by_cases arity : f.params.length = args.length
    · rw [callBy_function_apply leave limit fuel m arity]
      split
      · exact .inl ⟨_, rfl⟩
      · cases fuel with
        | zero => exact .inl ⟨_, rfl⟩
        | succ fuel => exact .inr ⟨f, fuel, rfl, rfl, rfl⟩
    · exact .inl ⟨_, callBy_arity_apply leave limit fuel m arity⟩
  · exact .inl ⟨_, callBy_other_apply leave limit fuel args m fun f eq => isFunction ⟨f, eq⟩⟩

namespace Agreement

variable {A : Agreement} {leave leave' : Leaving} {limit fuel : Nat}

/-- Calls agree if the evaluation of the body does, should it come to that. -/
lemma sim_callBy (depth : ∀ w, (A.left w).depth = (A.right w).depth)
    (outOfFuel : ∀ w, A.stop w .outOfFuel) {w : A.World} {v : Value} {args : List Value}
    (run : ∀ f fuel', v = .function f → fuel = fuel' + 1 →
      A.Sim A.value w (f.runBy leave (callBy leave limit fuel') args)
        (f.runBy leave' (callBy leave' limit fuel') args)) :
    A.Sim A.value w (callBy leave limit fuel v args) (callBy leave' limit fuel v args) := by
  by_cases isFunction : ∃ f, v = .function f
  · obtain ⟨f, rfl⟩ := isFunction
    by_cases arity : f.params.length = args.length
    · by_cases exceeded : 0 < limit ∧ limit ≤ (A.left w).depth
      · have left := (callBy_function_apply leave limit fuel (A.left w) arity).trans
          (if_pos exceeded)
        have right := (callBy_function_apply leave' limit fuel (A.right w) arity).trans
          (if_pos (depth w ▸ exceeded))
        exact .stopped left right ⟨rfl, A.failed w _⟩
      · have left := (callBy_function_apply leave limit fuel (A.left w) arity).trans
          (if_neg exceeded)
        have right := (callBy_function_apply leave' limit fuel (A.right w) arity).trans
          (if_neg (depth w ▸ exceeded))
        cases fuel with
        | zero => exact .stopped left right ⟨rfl, outOfFuel w⟩
        | succ fuel =>
          refine .congr ?_ ?_ (run f fuel rfl rfl)
          · exact left
          · exact right
    · exact .stopped (callBy_arity_apply leave limit fuel _ arity)
        (callBy_arity_apply leave' limit fuel _ arity) ⟨rfl, A.failed w _⟩
  · have other : ∀ f, v ≠ .function f := fun f eq => isFunction ⟨f, eq⟩
    exact .stopped (callBy_other_apply leave limit fuel args _ other)
      (callBy_other_apply leave' limit fuel args _ other) ⟨rfl, A.failed w _⟩

/-- Calls with equal limits and fuel agree if the evaluations of function bodies do. -/
theorem calls (depth : ∀ w, (A.left w).depth = (A.right w).depth)
    (outOfFuel : ∀ w, A.stop w .outOfFuel)
    (run : ∀ {fuel w f args},
      A.coupling.Calls (callBy leave limit fuel) (callBy leave' limit fuel) →
      A.value w (.function f) → (∀ v ∈ args, A.value w v) →
      A.Sim A.value w (f.runBy leave (callBy leave limit fuel) args)
        (f.runBy leave' (callBy leave' limit fuel) args)) :
    A.coupling.Calls (callBy leave limit fuel) (callBy leave' limit fuel) := by
  -- A body is evaluated with one unit of fuel less, and this is all that calls depend on.
  induction fuel with
  | zero =>
    intro w v v' args args' related relatedArgs
    obtain ⟨rfl, good⟩ := related
    obtain ⟨rfl, goodArgs⟩ := forall₂_iff.1 relatedArgs
    exact sim_callBy depth outOfFuel fun _ _ _ none => nomatch none
  | succ fuel ih =>
    intro w v v' args args' related relatedArgs
    obtain ⟨rfl, good⟩ := related
    obtain ⟨rfl, goodArgs⟩ := forall₂_iff.1 relatedArgs
    refine sim_callBy depth outOfFuel fun f fuel' isFunction same => ?_
    cases isFunction
    cases same
    exact run ih good goodArgs

/-- What an agreement of each evaluation with itself asks of calls, if functions are made only of
code that uses these names: a call begins in a world that follows, and so it ends, whether its scope
is emptied or not. -/
structure LawfulCalls (A : Agreement) (names : String → Prop) : Prop where
  same : ∀ w, A.left w = A.right w
  never : ∀ s, ¬ A.givesUp s
  stop : ∀ {w s}, A.stop w s ↔ ∀ v, s = .returned v → A.value w v
  spoken : ∀ {w f}, A.value w (.function f) → ∀ name ∈ f.body.uses, names name
  enters : ∀ {w f args}, A.value w (.function f) → (∀ v ∈ args, A.value w v) →
    ∃ w', A.le w w' ∧ A.left w' = ((A.left w).enter f args).2 ∧ A.scope w' (A.left w).store.size
  leaves : ∀ {w m i}, A.scope w i →
    m.store = (A.left w).store ∨ m.store = (A.left w).store.clear i →
    ∃ w', A.le w w' ∧ A.left w' = m

namespace LawfulCalls

variable {names : String → Prop}

/-- A call that is begun keeps to the agreement if the calls in the body do. -/
lemma run (h : A.LawfulCalls names) (law : A.LawfulOn names) (modest : leave.Modest) {c : Caller}
    (calls : A.coupling.Calls c c) {w : A.World} {f : Closure} {args : List Value}
    (callee : A.value w (.function f)) (good : ∀ v ∈ args, A.value w v) :
    A.Sim A.value w (f.runBy leave c args) (f.runBy leave c args) := by
  obtain ⟨w₁, begins, entered, inside⟩ := h.enters callee good
  obtain ⟨w₂, during, ended, value, stop⟩ := of_sim_alone h.same h.never
    (f.body.eval_simOn law.coupling calls (h.spoken callee) (w := w₁) ⟨rfl, inside⟩)
  rw [entered] at ended value stop
  have leaving : (f.runBy leave c args (A.left w)).2.store = (A.left w₂).store ∨
      (f.runBy leave c args (A.left w)).2.store =
        (A.left w₂).store.clear (A.left w).store.size := by
    rw [ended, Closure.runBy_apply]
    exact modest.store _ _ _
  obtain ⟨w₃, ends, left⟩ := h.leaves (A.scope_mono during inside) leaving
  -- What the call gives is what the body came to.
  have given {v : Value} (run : (f.runBy leave c args (A.left w)).1 = .ok v ∨
      (f.runBy leave c args (A.left w)).1 = .error (.returned v)) : A.value w₃ v := by
    refine A.value_mono ends ?_
    rcases modest.value run with run | run
    · exact value v run
    · exact h.stop.1 (stop _ run) v rfl
  refine sim_alone h.same w₃ (A.trans begins (A.trans during ends)) left
    (fun v run => given (.inl run)) fun s run => h.stop.2 ?_
  rintro v rfl
  exact given (.inr run)

/-- Calls keep to an agreement that evaluations, and the ways calls begin and end, keep to. -/
theorem calls (h : A.LawfulCalls names) (law : A.LawfulOn names) (modest : leave.Modest)
    (limit fuel : Nat) :
    A.coupling.Calls (callBy leave limit fuel) (callBy leave limit fuel) :=
  Agreement.calls (fun w => by rw [h.same w]) (fun _ => h.stop.2 fun _ eq => nomatch eq)
    fun calls => h.run law modest calls

end LawfulCalls

end Agreement

end Monkey
