import Monkey.Proofs.Evaluation.Isolation
import Monkey.Proofs.Store.Likeness

/-!
# Keeping the scopes of calls

Evaluation beside itself: on the left all calls leave their scope as it is, on the right a call may
empty its scope. The left side is what lexical scoping says. The two sides stay together as long as
no call loses anything, that is, as long as no emptied scope binds a name and is something that the
result of the call still gets to; the left side watches for this and gives up. Main statement:
`watched_calls`.
-/

namespace Monkey

namespace Machine

/-- Ends a call and leaves its scope as it is. -/
def keep : Leaving := fun m _ result => (caught result, ⟨m.store, m.depth - 1⟩)

/-- The evaluator, ending a call, changes a scope that the result of the call still gets to. -/
def Loses (m : Machine) (scope : Nat) (result : Except Stop Value) : Prop :=
  ∃ v i, caught result = .ok v ∧ m.store.ReachedFrom v i ∧
    (m.leave scope result).2.store.scope? i ≠ m.store.scope? i

open Classical in
/-- Ends a call and leaves its scope as it is, but gives up where the evaluator would lose
something. -/
noncomputable def keepWatched : Leaving := fun m scope result =>
  if m.Loses scope result then (.error .outOfFuel, m) else m.keep scope result

/-- The evaluator empties the scope of a call whose result is no function made inside it. -/
lemma leave_of_not_captures {m : Machine} {scope : Nat} {result : Except Stop Value} {v : Value}
    (eq : caught result = .ok v) (captured : m.store.captures v scope = false) :
    (m.leave scope result).2.store = m.store.clear scope := by
  simp only [leave, eq, escapes, captured, Bool.false_eq_true, if_false]

/-- A call loses something exactly if its result gets to the scope of the call, which binds a name,
and is not a function made inside this scope. -/
lemma loses_iff {m : Machine} {scope : Nat} {result : Except Stop Value} :
    m.Loses scope result ↔ ∃ v, caught result = .ok v ∧ m.store.captures v scope = false ∧
      m.store.ReachedFrom v scope ∧ m.store.names scope ≠ [] := by
  constructor
  · rintro ⟨v, i, eq, reached, changed⟩
    cases captured : m.store.captures v scope with
    | true =>
      simp only [leave, eq, escapes, captured, if_true] at changed
      exact absurd rfl changed
    | false =>
      rw [leave_of_not_captures eq captured] at changed
      by_cases here : scope = i
      · subst here
        refine ⟨v, eq, captured, reached, fun none => changed ?_⟩
        exact Store.scope?_clear_of_names none scope
      · exact absurd (Store.scope?_modify_of_ne here _) changed
  · rintro ⟨v, eq, captured, reached, names⟩
    refine ⟨v, scope, eq, reached, fun same => names ?_⟩
    rw [leave_of_not_captures eq captured] at same
    rw [← Store.names_congr same]
    exact Store.names_clear m.store scope

/-- The watched way to end a call is modest. -/
lemma keepWatched_modest : Leaving.Modest keepWatched where
  result m scope r := by
    unfold keepWatched
    split
    · exact .inr rfl
    · exact .inl rfl
  store m scope r := by
    unfold keepWatched
    split
    · exact .inl rfl
    · exact .inl rfl

end Machine

/-- A way to end a call that catches a `return` and at most empties the scope of the call, never one
that the result is a function made inside of. -/
structure Leaving.Cautious (leave : Leaving) : Prop where
  result : ∀ m scope r, (leave m scope r).1 = Machine.caught r
  depth : ∀ m scope r, (leave m scope r).2.depth = m.depth - 1
  store : ∀ m scope r, (leave m scope r).2.store = m.store ∨
    (leave m scope r).2.store = m.store.clear scope ∧
      Machine.escapes m.store scope (Machine.caught r) = false

/-- The way the evaluator ends a call is cautious. -/
lemma Machine.leave_cautious : Leaving.Cautious Machine.leave where
  result _ _ _ := rfl
  depth _ _ _ := rfl
  store m scope r := by
    simp only [leave]
    split
    · exact .inl rfl
    · rename_i not
      exact .inr ⟨rfl, Bool.eq_false_iff.2 not⟩

/-- To keep the scope of a call is cautious. -/
lemma Machine.keep_cautious : Leaving.Cautious Machine.keep where
  result _ _ _ := rfl
  depth _ _ _ := rfl
  store _ _ _ := .inl rfl

/-- Both machines at a moment, and the scopes that the evaluation can still get to. -/
structure Moment where
  kept : Machine
  actual : Machine
  live : Nat → Prop
  depth : kept.depth = actual.depth
  alike : kept.store.Alike live actual.store

/-- What the two evaluations have in common: live scopes stay live and are the same, values were
made in them. -/
def shadow : Agreement where
  World := Moment
  left := Moment.kept
  right := Moment.actual
  le w w' := ∀ i, w.live i → w'.live i
  scope w i := w.live i
  value w v := ∀ i, v.home? = some i → w.live i
  stop w s := ∀ v, s = .returned v → ∀ i, v.home? = some i → w.live i
  givesUp s := s = .outOfFuel
  refl _ _ live := live
  trans h h' i live := h' i (h i live)
  scope_mono le live := le _ live
  value_mono le good i home := le i (good i home)
  plain _ _ plain i home := by
    rw [Value.home?_of_isPlain plain] at home
    cases home
  returned good v eq := by
    cases eq
    exact good
  failed _ _ _ eq := nomatch eq

/-- The operations of an evaluation keep to the shadow. -/
lemma shadow_lawful : shadow.Lawful where
  lookup := by
    intro (w : Moment) i name live
    -- The scope is live, so no scope that was emptied is passed on the way.
    have same : w.actual.store.get? i name = w.kept.store.get? i name := w.alike.get? live name
    cases found : w.kept.store.get? i name with
    | none =>
      refine .stopped (s := .failed (.unknownIdentifier name)) ?_ ?_ ⟨rfl, shadow.failed w _⟩
      · show Eval.lookup i name w.kept = (_, w.kept)
        rw [Eval.lookup_apply, found]
      · show Eval.lookup i name w.actual = (_, w.actual)
        rw [Eval.lookup_apply, same, found]
    | some v =>
      have value : shadow.Sim shadow.value w (pure v) (pure v) :=
        .pure ⟨rfl, fun j home => w.alike.live_of_get? live found home⟩
      refine .congr ?_ ?_ value
      · show Eval.lookup i name w.kept = (.ok v, w.kept)
        rw [Eval.lookup_apply, found]
      · show Eval.lookup i name w.actual = (.ok v, w.actual)
        rw [Eval.lookup_apply, same, found]
  assign := by
    intro (w : Moment) i v name _ good
    refine .inr ⟨⟨_, _, w.live, ?_, w.alike.set i name good⟩, ?_, rfl, rfl, .ok trivial⟩
    · exact w.depth
    · exact fun _ live => live
  makeClosure := by
    intro (w : Moment) i params body _ live
    refine .inr ⟨⟨⟨w.kept.store.countClosure, w.kept.depth⟩,
      ⟨w.actual.store.countClosure, w.actual.depth⟩, w.live, w.depth, w.alike.countClosure⟩,
      fun _ live => live, rfl, rfl, ?_⟩
    show Outcomes _ _ (Except.ok _) (Except.ok _)
    refine .ok ⟨?_, ?_⟩
    · exact congrArg (fun n => Value.function ⟨n, params, body, i⟩) w.alike.closures
    · intro j home
      cases home
      exact live

/-- Arguments that were made in live places may be bound in both stores. -/
lemma Store.Alike.bindParams {live : Nat → Prop} {s s' : Store} (h : s.Alike live s') (scope : Nat)
    (params : List Identifier) (args : List Value)
    (good : ∀ v ∈ args, ∀ i, v.home? = some i → live i) :
    (Machine.bindParams s scope params args).Alike live
      (Machine.bindParams s' scope params args) := by
  induction params generalizing args s s' with
  | nil => exact h
  | cons x params ih =>
    cases args with
    | nil => exact h
    | cons v args =>
      apply ih (h.set scope x.name (good v List.mem_cons_self)) args
      exact fun v' mem => good v' (List.mem_cons_of_mem _ mem)

/-- The moment after a call was begun on both sides: the new scope is live. -/
def Moment.enter (w : Moment) (f : Closure) (args : List Value) (live : w.live f.scope)
    (good : ∀ v ∈ args, ∀ i, v.home? = some i → w.live i) : Moment where
  kept := (w.kept.enter f args).2
  actual := (w.actual.enter f args).2
  live i := w.live i ∨ i = w.kept.store.size
  depth := congrArg (· + 1) w.depth
  alike := by
    simp only [Machine.enter_eq]
    rw [← w.alike.size]
    refine (w.alike.push live).bindParams _ _ _ ?_
    exact fun v mem i home => .inl (good v mem i home)

/-- Equal results of two bodies, made in live places. -/
lemma of_shadow_outcomes {w : Moment} {r r' : Except Stop Value}
    (h : Outcomes (shadow.coupling.values w) (shadow.coupling.stops w) r r') :
    r' = r ∧ ∀ v, Machine.caught r = .ok v → shadow.value w v := by
  cases h with
  | ok related =>
    obtain ⟨rfl, good⟩ := related
    refine ⟨rfl, fun v eq => ?_⟩
    cases eq
    exact good
  | @error s _ related =>
    obtain ⟨rfl, good⟩ := related
    refine ⟨rfl, fun v eq => ?_⟩
    cases s with
    | returned v' =>
      cases eq
      exact good _ rfl
    | _ => cases eq

/-- Equal results of two calls, if a value was made in a live place. -/
lemma shadow_outcomes {w : Moment} {r : Except Stop Value}
    (h : ∀ v, Machine.caught r = .ok v → shadow.value w v) :
    Outcomes (shadow.coupling.values w) (shadow.coupling.stops w) (Machine.caught r)
      (Machine.caught r) := by
  cases r with
  | ok v => exact .ok ⟨rfl, h v rfl⟩
  | error s =>
    cases s with
    | returned v => exact .ok ⟨rfl, h v rfl⟩
    | _ => exact .error ⟨rfl, fun _ eq => nomatch eq⟩

/-- The end of a call on both sides. Unless the left side gives up, the results agree, and what was
live before the call and does not get to its scope is live after it. -/
lemma shadow_leave {leave : Leaving} (cautious : leave.Cautious) {w : Moment} {old : Nat → Prop}
    {scope : Nat} {r : Except Stop Value} (le : ∀ i, old i → w.live i)
    (apart : ∀ i, old i → ¬ w.kept.store.Reaches i scope)
    (good : ∀ v, Machine.caught r = .ok v → shadow.value w v) :
    (∃ s, (w.kept.keepWatched scope r).1 = .error s ∧ s = .outOfFuel) ∨
      ∃ w' : Moment, (∀ i, old i → w'.live i) ∧ w'.kept = (w.kept.keepWatched scope r).2 ∧
        w'.actual = (leave w.actual scope r).2 ∧
        Outcomes (shadow.coupling.values w') (shadow.coupling.stops w')
          (w.kept.keepWatched scope r).1 (leave w.actual scope r).1 := by
  by_cases lost : w.kept.Loses scope r
  · left
    rw [Machine.keepWatched, if_pos lost]
    exact ⟨.outOfFuel, rfl, rfl⟩
  · right
    rw [Machine.keepWatched, if_neg lost, cautious.result]
    have depth : (w.kept.keep scope r).2.depth = (leave w.actual scope r).2.depth := by
      rw [cautious.depth, ← w.depth]
      rfl
    rcases cautious.store w.actual scope r with kept | ⟨emptied, closed⟩
    · have alike : w.kept.store.Alike w.live (leave w.actual scope r).2.store := by
        rw [kept]
        exact w.alike
      exact ⟨⟨(w.kept.keep scope r).2, (leave w.actual scope r).2, w.live, depth, alike⟩, le, rfl,
        rfl, shadow_outcomes good⟩
    · -- The scope was emptied: what gets to it must not be live any more.
      have alike := w.alike.forget scope
      rw [← emptied] at alike
      refine ⟨⟨(w.kept.keep scope r).2, (leave w.actual scope r).2, _, depth, alike⟩, ?_, rfl, rfl,
        shadow_outcomes ?_⟩
      · exact fun i live => ⟨le i live, fun path => absurd path (apart i live)⟩
      · intro v eq i home
        refine ⟨good v eq i home, fun path => Classical.byContradiction fun names => lost ?_⟩
        -- A result that still gets to a scope with names in it would have been a loss.
        refine Machine.loses_iff.2 ⟨v, eq, ?_, ⟨i, home, path⟩, names⟩
        rw [← w.alike.captures (good v eq) scope]
        rw [eq] at closed
        exact closed

/-- A function runs alike in both ways, unless the watched one gives up. -/
lemma shadow_run {leave : Leaving} (cautious : leave.Cautious) {c c' : Caller}
    (grows : ∀ v args (m : Machine), m.store.Grows Store.untouched (c v args m).2.store)
    (calls : shadow.coupling.Calls c c') {w : Moment} {f : Closure} {args : List Value}
    (live : w.live f.scope) (good : ∀ v ∈ args, shadow.value w v) :
    shadow.Sim shadow.value w (f.runBy Machine.keepWatched c args) (f.runBy leave c' args) := by
  have body := f.body.eval_sim shadow_lawful.coupling calls (w := w.enter f args live good)
    (i := w.kept.store.size) ⟨rfl, .inr rfl⟩
  have frame := f.body_grows grows args w.kept
  show (∃ s, (f.runBy Machine.keepWatched c args w.kept).1 = .error s ∧ s = .outOfFuel) ∨
    ∃ w' : Moment, (∀ i, w.live i → w'.live i) ∧
      w'.kept = (f.runBy Machine.keepWatched c args w.kept).2 ∧
      w'.actual = (f.runBy leave c' args w.actual).2 ∧
      Outcomes (shadow.coupling.values w') (shadow.coupling.stops w')
        (f.runBy Machine.keepWatched c args w.kept).1 (f.runBy leave c' args w.actual).1
  rw [Closure.runBy_apply, Closure.runBy_apply, ← w.alike.size]
  rcases body with ⟨s, stopped, rfl⟩ | ⟨w', le, left, right, outcomes⟩
  · left
    have stopped : (f.body.eval c w.kept.store.size (w.kept.enter f args).2).1 =
      .error .outOfFuel := stopped
    refine ⟨.outOfFuel, ?_, rfl⟩
    rw [stopped, Machine.keepWatched]
    split
    · rfl
    · rfl
  · obtain ⟨eq, value⟩ := of_shadow_outcomes outcomes
    have left : w'.kept = (f.body.eval c w.kept.store.size (w.kept.enter f args).2).2 := left
    have right : w'.actual = (f.body.eval c' w.kept.store.size (w.actual.enter f args).2).2 :=
      right
    have eq : (f.body.eval c' w.kept.store.size (w.actual.enter f args).2).1 =
      (f.body.eval c w.kept.store.size (w.kept.enter f args).2).1 := eq
    rw [eq, ← left, ← right]
    refine shadow_leave cautious (fun i old => le i (.inl old)) ?_ value
    -- No scope from before the call gets to the new one: the body left them all as they were.
    intro i old path
    rw [left] at path
    have stays : w.live w.kept.store.size := path.region (R := w.live) (fun j k there link => by
      exact w.alike.steps j k there (link.congr (frame.kept j (w.alike.inside j there) id))) old
    exact Nat.lt_irrefl _ (w.alike.inside _ stays)

/-- Calls that keep the scopes of calls and watch for losses agree with calls that end cautiously,
as long as nothing is lost. -/
theorem watched_calls {leave : Leaving} (cautious : leave.Cautious) (limit fuel : Nat) :
    shadow.coupling.Calls (callBy Machine.keepWatched limit fuel) (callBy leave limit fuel) := by
  apply Agreement.calls
  · exact fun w => w.depth
  · exact fun _ _ eq => nomatch eq
  · intro fuel w f args calls live good
    have grows := callBy_grows Machine.keepWatched_modest limit fuel
    exact shadow_run cautious grows calls (live f.scope rfl) good

end Monkey
