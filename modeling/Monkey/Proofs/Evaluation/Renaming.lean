import Monkey.Evaluation.Node
import Monkey.Proofs.Evaluation.Leaving
import Monkey.Proofs.Store.Renaming

/-!
# Evaluation under other names

Evaluations on a machine and on a copy of it under new names go the same way: they end alike, with
values that differ in names only, and leave a machine and its copy behind. So no evaluation can tell
which scopes there are besides those that it can get to, or how many functions were made before.
Main statement: `Renaming.calls`.
-/

namespace Monkey

/-- A machine, and a copy of it under new names. -/
structure Copy (r : Renaming) where
  left : Machine
  right : Machine
  depth : left.depth = right.depth
  renamed : left.store.Renamed r right.store

/-- The stop under its new name. -/
def Stop.rename (r : Renaming) : Stop → Stop
  | .returned v => .returned (v.rename r)
  | s => s

/-- What the evaluations on a machine and on its copy have in common. -/
def Renaming.coupling (r : Renaming) : Coupling where
  World := Copy r
  left := Copy.left
  right := Copy.right
  le w w' := w.left.store.size ≤ w'.left.store.size ∧ w.left.store.closures ≤ w'.left.store.closures
  scopes w i j := j = r.scope i ∧ i < w.left.store.size
  values w a b := b = a.rename r ∧ w.left.store.Made a
  stops w s t := t = s.rename r ∧ ∀ v, s = .returned v → w.left.store.Made v
  givesUp _ := False
  refl _ := ⟨Nat.le_refl _, Nat.le_refl _⟩
  trans h h' := ⟨Nat.le_trans h.1 h'.1, Nat.le_trans h.2 h'.2⟩
  scopes_mono le h := ⟨h.1, Nat.lt_of_lt_of_le h.2 le.1⟩
  values_mono le h := ⟨h.1, h.2.mono le.1 le.2⟩

variable {r : Renaming}

/-- A value without a part in the store keeps its name. -/
lemma Value.rename_of_isPlain {v : Value} (plain : v.IsPlain) : v.rename r = v := by
  cases v with
  | function | returned | error => cases plain
  | _ => rfl

/-- A value without a part in the store was made anywhere. -/
lemma Store.made_of_isPlain {s : Store} {v : Value} (plain : v.IsPlain) : s.Made v := by
  cases v with
  | function | returned | error => cases plain
  | _ => exact trivial

namespace Renaming

variable {w : Copy r}

/-- The result of an operator has no part in the store. -/
lemma sim_ofExcept {x : Except RuntimeError Value} (plain : ∀ v, x = .ok v → v.IsPlain) :
    r.coupling.Sim r.coupling.values w (Eval.ofExcept x) (Eval.ofExcept x) := by
  cases x with
  | ok v =>
    exact .pure ⟨(Value.rename_of_isPlain (plain v rfl)).symm, Store.made_of_isPlain (plain v rfl)⟩
  | error e => exact .throw ⟨rfl, nofun⟩

/-- The operations of an evaluation keep to a renaming. -/
lemma lawful (r : Renaming) : r.coupling.Lawful where
  constant w l :=
    ⟨(Value.rename_of_isPlain (Value.isPlain_ofLiteral l)).symm,
      Store.made_of_isPlain (Value.isPlain_ofLiteral l)⟩
  null w := ⟨rfl, trivial⟩
  truthy := by
    rintro w a _ ⟨rfl, _⟩
    exact a.isTruthy_rename.symm
  returned := by
    rintro w a _ ⟨rfl, made⟩
    refine ⟨rfl, ?_⟩
    rintro v eq
    cases eq
    exact made
  prefixOp := by
    rintro w a _ op ⟨rfl, _⟩
    rw [op.apply_rename]
    exact sim_ofExcept fun _ => PrefixOp.isPlain_of_apply
  infixOp := by
    rintro w a _ a' _ op ⟨rfl, _⟩ ⟨rfl, _⟩
    rw [op.apply_rename]
    exact sim_ofExcept fun _ => InfixOp.isPlain_of_apply
  lookup := by
    rintro (w : Copy r) i _ name ⟨rfl, inside⟩
    -- The copy finds the renamed value, or stops as the machine does.
    have same := w.renamed.get? i name
    cases found : w.left.store.get? i name with
    | none =>
      rw [found] at same
      refine .stopped (s := .failed (.unknownIdentifier name))
        (t := .failed (.unknownIdentifier name)) ?_ ?_ ⟨rfl, nofun⟩
      · show Eval.lookup i name w.left = (_, w.left)
        rw [Eval.lookup_apply, found]
      · show Eval.lookup (r.scope i) name w.right = (_, w.right)
        rw [Eval.lookup_apply, same]
        rfl
    | some v =>
      rw [found] at same
      have value : r.coupling.Sim r.coupling.values w (pure v) (pure (v.rename r)) :=
        .pure ⟨rfl, w.renamed.made.get? found⟩
      refine .congr ?_ ?_ value
      · show Eval.lookup i name w.left = (.ok v, w.left)
        rw [Eval.lookup_apply, found]
      · show Eval.lookup (r.scope i) name w.right = (.ok (v.rename r), w.right)
        rw [Eval.lookup_apply, same]
        rfl
  assign := by
    rintro (w : Copy r) i _ a _ name ⟨rfl, _⟩ ⟨rfl, made⟩
    refine .inr ⟨⟨_, _, ?_, w.renamed.set i name made⟩, ?_, rfl, rfl, .ok trivial⟩
    · exact w.depth
    · exact ⟨Nat.le_of_eq (Store.size_set _ _ _ _).symm, Nat.le_refl _⟩
  makeClosure := by
    rintro (w : Copy r) i _ params body _ ⟨rfl, inside⟩
    refine .inr ⟨⟨⟨w.left.store.countClosure, w.left.depth⟩,
      ⟨w.right.store.countClosure, w.right.depth⟩, w.depth, w.renamed.countClosure⟩,
      ⟨Nat.le_refl _, Nat.le_succ _⟩, rfl, rfl, ?_⟩
    show Outcomes _ _ (Except.ok _) (Except.ok _)
    refine .ok ⟨?_, Nat.lt_succ_self _, inside⟩
    exact congrArg (fun n => Value.function ⟨n, params, body, r.scope i⟩)
      w.renamed.identity_closures.symm

/-- Renamed arguments are the renamed ones of what was made. -/
lemma forall₂_iff {args args' : List Value} :
    List.Forall₂ (r.coupling.values w) args args' ↔
      args' = args.map (·.rename r) ∧ ∀ v ∈ args, w.left.store.Made v := by
  constructor
  · intro h
    induction h with
    | nil => exact ⟨rfl, by simp⟩
    | cons related _ ih =>
      obtain ⟨rfl, made⟩ := related
      obtain ⟨rfl, others⟩ := ih
      exact ⟨rfl, List.forall_mem_cons.2 ⟨made, others⟩⟩
  · rintro ⟨rfl, made⟩
    exact List.forall₂_map_right_iff.2 (List.forall₂_same.2 fun v mem => ⟨rfl, made v mem⟩)

end Renaming

/-- Parameters are bound in a store and in its copy. -/
lemma Store.Renamed.bindParams {s s' : Store} (h : s.Renamed r s') (i : Nat)
    (params : List Identifier) {args : List Value} (made : ∀ v ∈ args, s.Made v) :
    (Machine.bindParams s i params args).Renamed r
        (Machine.bindParams s' (r.scope i) params (args.map (·.rename r))) ∧
      (Machine.bindParams s i params args).size = s.size ∧
      (Machine.bindParams s i params args).closures = s.closures := by
  induction params generalizing args s s' with
  | nil => exact ⟨h, rfl, rfl⟩
  | cons x params ih =>
    cases args with
    | nil => exact ⟨h, rfl, rfl⟩
    | cons v args =>
      obtain ⟨first, others⟩ := List.forall_mem_cons.1 made
      have size : (s.set i x.name v).size = s.size := size_set s i x.name v
      obtain ⟨renamed, size', closures⟩ := ih (h.set i x.name first) fun v' mem =>
        (others v' mem).mono (Nat.le_of_eq size.symm) (Nat.le_refl _)
      exact ⟨renamed, size'.trans size, closures⟩

namespace Copy

/-- The machine and its copy after a call was begun on both. -/
def enter (w : Copy r) (f : Closure) (args : List Value)
    (made : ∀ v ∈ args, w.left.store.Made v) : Copy r where
  left := (w.left.enter f args).2
  right := (w.right.enter (f.rename r) (args.map (·.rename r))).2
  depth := congrArg (· + 1) w.depth
  renamed := by
    simp only [Machine.enter_eq, ← w.renamed.scope_size]
    have pushed := w.renamed.push (some f.scope)
    refine (pushed.bindParams w.left.store.size f.params fun v mem => ?_).1
    exact (made v mem).mono (by simp) (Nat.le_refl _)

/-- After the end of a call whose scope is kept. -/
def kept (w : Copy r) : Copy r where
  left := ⟨w.left.store, w.left.depth - 1⟩
  right := ⟨w.right.store, w.right.depth - 1⟩
  depth := congrArg (· - 1) w.depth
  renamed := w.renamed

/-- After the end of a call whose scope is emptied. -/
def emptied (w : Copy r) (i : Nat) : Copy r where
  left := ⟨w.left.store.clear i, w.left.depth - 1⟩
  right := ⟨w.right.store.clear (r.scope i), w.right.depth - 1⟩
  depth := congrArg (· - 1) w.depth
  renamed := w.renamed.clear i

/-- Outcomes that belong together do so later. -/
lemma outcomes_mono {w w' : Copy r} (le : r.coupling.le w w') {x y : Except Stop Value}
    (h : Outcomes (r.coupling.values w) (r.coupling.stops w) x y) :
    Outcomes (r.coupling.values w') (r.coupling.stops w') x y := by
  cases h with
  | ok related => exact .ok (r.coupling.values_mono le related)
  | error related => exact .error ⟨related.1, fun v eq => (related.2 v eq).mono le.1 le.2⟩

/-- Bodies that came to related results give related values, or pass on related stops. -/
lemma caught {w : Copy r} {x y : Except Stop Value}
    (h : Outcomes (r.coupling.values w) (r.coupling.stops w) x y) :
    Outcomes (r.coupling.values w) (r.coupling.stops w) (Machine.caught x) (Machine.caught y) := by
  cases h with
  | ok related => exact .ok related
  | @error s _ related =>
    obtain ⟨rfl, made⟩ := related
    cases s with
    | returned v => exact .ok ⟨rfl, made v rfl⟩
    | _ => exact .error ⟨rfl, made⟩

/-- A result escapes a call exactly if its copy escapes the copy of the call. -/
lemma escapes {w : Copy r} (i : Nat) {x y : Except Stop Value}
    (h : Outcomes (r.coupling.values w) (r.coupling.stops w) x y) :
    Machine.escapes w.right.store (r.scope i) y = Machine.escapes w.left.store i x := by
  cases h with
  | ok related =>
    obtain ⟨rfl, _⟩ := related
    exact w.renamed.captures _ i
  | error => rfl

/-- The end of a call on a machine and on its copy. -/
lemma leave (w : Copy r) (i : Nat) {x y : Except Stop Value}
    (h : Outcomes (r.coupling.values w) (r.coupling.stops w) x y) :
    ∃ w' : Copy r, r.coupling.le w w' ∧ w'.left = (w.left.leave i x).2 ∧
      w'.right = (w.right.leave (r.scope i) y).2 ∧
      Outcomes (r.coupling.values w') (r.coupling.stops w') (w.left.leave i x).1
        (w.right.leave (r.scope i) y).1 := by
  have results := caught h
  have escapes := escapes i results
  simp only [Machine.leave, escapes]
  split
  · exact ⟨w.kept, r.coupling.refl w, rfl, rfl, results⟩
  · have le : r.coupling.le w (w.emptied i) :=
      ⟨Nat.le_of_eq (Store.size_clear w.left.store i).symm, Nat.le_refl _⟩
    exact ⟨w.emptied i, le, rfl, rfl, outcomes_mono le results⟩

end Copy

namespace Renaming

variable {w : Copy r}

/-- A function and its copy run alike if calls do. -/
lemma run {c c' : Caller} (calls : r.coupling.Calls c c') {f : Closure} {args : List Value}
    (made : ∀ v ∈ args, w.left.store.Made v) :
    r.coupling.Sim r.coupling.values w (f.runBy Machine.leave c args)
      ((f.rename r).runBy Machine.leave c' (args.map (·.rename r))) := by
  have pushed := w.renamed.push (some f.scope)
  obtain ⟨_, size, closures⟩ := pushed.bindParams w.left.store.size f.params fun v mem =>
    (made v mem).mono (by simp) (Nat.le_refl _)
  have size : (w.enter f args made).left.store.size = w.left.store.size + 1 :=
    size.trans (Store.size_push _ _)
  have entered : r.coupling.le w (w.enter f args made) :=
    ⟨Nat.le_of_lt (Nat.lt_of_lt_of_eq (Nat.lt_succ_self _) size.symm), Nat.le_of_eq closures.symm⟩
  have body := f.body.eval_sim r.lawful calls (w := w.enter f args made)
    (i := w.left.store.size) ⟨rfl, Nat.lt_of_lt_of_eq (Nat.lt_succ_self _) size.symm⟩
  rcases body with ⟨_, _, none⟩ | ⟨w', le, left, right, outcomes⟩
  · exact none.elim
  · have scope : r.scope w.left.store.size = w.right.store.size := w.renamed.scope_size
    have left : w'.left = (f.body.eval c w.left.store.size (w.left.enter f args).2).2 := left
    have right : w'.right = ((f.rename r).body.eval c' (r.scope w.left.store.size)
      (w.right.enter (f.rename r) (args.map (·.rename r))).2).2 := right
    obtain ⟨w'', le', left', right', results⟩ := w'.leave w.left.store.size outcomes
    refine .inr ⟨w'', r.coupling.trans entered (r.coupling.trans le le'), ?_, ?_, ?_⟩
    · show w''.left = (f.runBy Machine.leave c args w.left).2
      rw [Closure.runBy_apply, ← left]
      exact left'
    · show w''.right = ((f.rename r).runBy Machine.leave c' (args.map (·.rename r)) w.right).2
      rw [Closure.runBy_apply, ← scope, ← right]
      exact right'
    · show Outcomes _ _ (f.runBy Machine.leave c args w.left).1
        ((f.rename r).runBy Machine.leave c' (args.map (·.rename r)) w.right).1
      rw [Closure.runBy_apply, Closure.runBy_apply, ← scope, ← left, ← right]
      exact results

/-- Calls go the same way if the evaluation of the body does, should it come to that. -/
lemma sim_callBy {leave : Leaving} {limit fuel : Nat} {v : Value} {args : List Value}
    (run : ∀ f fuel', v = .function f → fuel = fuel' + 1 →
      r.coupling.Sim r.coupling.values w (f.runBy leave (callBy leave limit fuel') args)
        ((f.rename r).runBy leave (callBy leave limit fuel') (args.map (·.rename r)))) :
    r.coupling.Sim r.coupling.values w (callBy leave limit fuel v args)
      (callBy leave limit fuel (v.rename r) (args.map (·.rename r))) := by
  by_cases isFunction : ∃ f, v = .function f
  · obtain ⟨f, rfl⟩ := isFunction
    have count : (args.map (·.rename r)).length = args.length := List.length_map _
    by_cases arity : f.params.length = args.length
    · have arity' : (f.rename r).params.length = (args.map (·.rename r)).length :=
        arity.trans count.symm
      -- Both machines are as deep, so both calls are refused or neither is.
      by_cases exceeded : 0 < limit ∧ limit ≤ w.left.depth
      · have left := (callBy_function_apply leave limit fuel w.left arity).trans (if_pos exceeded)
        have right := (callBy_function_apply leave limit fuel w.right arity').trans
          (if_pos (w.depth ▸ exceeded))
        exact .stopped left right ⟨rfl, nofun⟩
      · have left := (callBy_function_apply leave limit fuel w.left arity).trans (if_neg exceeded)
        have right := (callBy_function_apply leave limit fuel w.right arity').trans
          (if_neg (w.depth ▸ exceeded))
        cases fuel with
        | zero => exact .stopped left right ⟨rfl, nofun⟩
        | succ fuel =>
          refine .congr ?_ ?_ (run f fuel rfl rfl)
          · exact left
          · exact right
    · have left := callBy_arity_apply leave limit fuel w.left arity
      have arity' : (f.rename r).params.length ≠ (args.map (·.rename r)).length :=
        fun eq => arity (eq.trans count)
      have right := callBy_arity_apply leave limit fuel w.right arity'
      rw [count] at right
      exact .stopped left right ⟨rfl, nofun⟩
  · have other : ∀ f, v ≠ .function f := fun f eq => isFunction ⟨f, eq⟩
    have other' : ∀ f, v.rename r ≠ .function f := by
      intro f eq
      cases v with
      | function f => exact other f rfl
      | _ => cases eq
    have left := callBy_other_apply leave limit fuel args w.left other
    have right := callBy_other_apply leave limit fuel (args.map (·.rename r)) w.right other'
    rw [v.type_rename] at right
    exact .stopped left right ⟨rfl, nofun⟩

/-- Calls on a machine and on its copy go the same way. -/
theorem calls (r : Renaming) (limit fuel : Nat) :
    r.coupling.Calls (call limit fuel) (call limit fuel) := by
  rw [call_eq_callBy]
  induction fuel with
  | zero =>
    rintro w v _ args _ ⟨rfl, _⟩ relatedArgs
    obtain ⟨rfl, _⟩ := forall₂_iff.1 relatedArgs
    exact sim_callBy fun _ _ _ none => nomatch none
  | succ fuel ih =>
    rintro w v _ args _ ⟨rfl, _⟩ relatedArgs
    obtain ⟨rfl, made⟩ := forall₂_iff.1 relatedArgs
    refine sim_callBy fun f fuel' isFunction same => ?_
    cases same
    exact run ih made

end Renaming

/-- What a program hands out of a copy is the copy of what it hands out. -/
lemma finish_rename {w : Copy r} {x y : Except Stop Value}
    (h : Outcomes (r.coupling.values w) (r.coupling.stops w) x y) :
    Eval.finish y = (Eval.finish x).map (·.rename r) := by
  cases h with
  | ok related => exact congrArg some related.1
  | @error s _ related =>
    obtain ⟨rfl, _⟩ := related
    cases s <;> rfl

/-- A program evaluated on a machine and on its copy comes to the same under the new names, and
leaves a machine and its copy behind. -/
theorem Program.eval_rename (b : Bounds) (p : Program) (w : Copy r) {i : Nat}
    (inside : i < w.left.store.size) :
    ∃ w' : Copy r, r.coupling.le w w' ∧ w'.left = (p.eval b i w.left).2 ∧
      w'.right = (p.eval b (r.scope i) w.right).2 ∧
      (p.eval b (r.scope i) w.right).1 = (p.eval b i w.left).1.map (·.rename r) := by
  have sim := Stmt.evalList_sim r.lawful (r.calls b.limit b.fuel) p.statements (w := w)
    (i := i) (a := .null) ⟨rfl, inside⟩ ⟨rfl, trivial⟩
  rcases sim with ⟨_, _, none⟩ | ⟨w', le, left, right, outcomes⟩
  · exact none.elim
  · exact ⟨w', le, left, right, finish_rename outcomes⟩

end Monkey
