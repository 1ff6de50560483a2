import Monkey.Proofs.Evaluation.Moments
import Monkey.Proofs.Host.Moves

/-!
# No knots

Whatever a host does with scopes, and whatever the programs that it evaluates do, the links between
scopes make a forest, at every moment; a scope stays where it was opened. Functions may be stored in
the scopes they were made in for all that. Main statement: `scopes_untied`.
-/

namespace Monkey

namespace Store

/-- There is no knot in the links: following them ends, so look-ups do; being inside is a forest
order; and a scope opened inside another one comes right below that, with nothing inside it. -/
structure Untied (s : Store) : Prop where
  ends : WellFounded fun o i => s.outer? i = some o
  finds : ∀ i name found, Scopes.Finds s.scopes name i found ↔ found = s.get? i name
  climbs : ∀ i a within, Scopes.Climbs s.scopes a (some i) within ↔ within = s.isWithin i a
  forest : IsForest fun i a => s.isWithin i a = true
  enclosed : ∀ i, i < s.size → (s.enclosed i).2 = s.size ∧
    (∀ a, (s.enclosed i).1.isWithin s.size a = true ↔ a = s.size ∨ s.isWithin i a = true) ∧
    ∀ j, j < s.size → (s.enclosed i).1.isWithin j s.size = false ∧
      ∀ a, (s.enclosed i).1.isWithin j a = s.isWithin j a

/-- In no store there is a knot. -/
theorem untied (s : Store) : s.Untied where
  ends := s.wellFounded_outer
  finds _ _ _ := Scopes.finds_iff
  climbs _ _ _ := Scopes.climbs_iff
  forest := s.isForest
  enclosed i inside := ⟨rfl, isWithin_enclosed inside, fun _ old =>
    ⟨not_isWithin_of_lt old, (Precedes.push s (some i)).isWithin old⟩⟩

end Store

namespace Host

/-- The handles and values of a host are those of its store. -/
structure Sound (h : Host) : Prop where
  closed : h.store.Closed
  inside : ∀ scope ∈ h.handles, scope < h.store.size
  held : ∀ v ∈ h.values, h.store.Holds v

variable {h h' : Host}

namespace Sound

/-- A host stays sound if its store stays closed and loses no scope. -/
lemma withMachine (sound : h.Sound) {m : Machine} (closed : m.store.Closed)
    (le : h.store.size ≤ m.store.size) : { h with machine := m }.Sound where
  closed := closed
  inside scope mem := Nat.lt_of_lt_of_le (sound.inside scope mem) le
  held v mem := (sound.held v mem).mono le

/-- A handle to a scope that is there may be added. -/
lemma addHandle (sound : h.Sound) {scope : Nat} (inside : scope < h.store.size) :
    (h.addHandle scope).2.Sound where
  closed := sound.closed
  inside i mem := by
    rcases List.mem_append.1 mem with old | new
    · exact sound.inside i old
    · exact List.mem_singleton.1 new ▸ inside
  held := sound.held

/-- A value that the store holds may be added. -/
lemma addValue (sound : h.Sound) {v : Value} (held : h.store.Holds v) :
    (h.addValue v).2.Sound where
  closed := sound.closed
  inside := sound.inside
  held w mem := by
    rcases List.mem_append.1 mem with old | new
    · exact sound.held w old
    · exact List.mem_singleton.1 new ▸ held

/-- A scope may be opened, with a handle to it. -/
lemma push (sound : h.Sound) (outer : Option Nat) : (h.addScope (h.store.push outer)).2.Sound := by
  have le : h.store.size < (h.store.push outer).1.size := by simp
  exact (sound.withMachine (m := ⟨_, h.machine.depth⟩) (sound.closed.push outer)
    (Nat.le_of_lt le)).addHandle le

/-- The result of an evaluation may be added. -/
lemma addResult (sound : h.Sound) {r : Option Value × Machine} (closed : r.2.store.Closed)
    (le : h.store.size ≤ r.2.store.size) (held : ∀ v, r.1 = some v → r.2.store.Holds v) :
    (h.addResult r).2.Sound := by
  obtain ⟨_ | v, m⟩ := r
  · exact sound.withMachine closed le
  · exact (sound.withMachine closed le).addValue (held v rfl)

/-- A step does not lead out of the store. -/
lemma moves (sound : h.Sound) (moves : h.Moves h') : h'.Sound := by
  cases moves with
  | stay => exact sound
  | new => exact sound.push none
  | enclosed => exact sound.push _
  | clone named => exact sound.addHandle (sound.inside _ named)
  -- A function that the store holds was made in one of its scopes.
  | home named => exact sound.addHandle (sound.held _ named _ rfl)
  | made none => exact sound.addValue (.of_home_eq_none none)
  | returned named => exact sound.addValue fun j home => sound.held _ named j home
  | found _ found => exact sound.addValue (sound.closed.get? found)
  | set name _ named =>
    exact sound.withMachine (sound.closed.set _ name (sound.held _ named))
      (Nat.le_of_eq (Store.size_set _ _ _ _).symm)
  | clear =>
    exact sound.withMachine (sound.closed.clear _) (Nat.le_of_eq (Store.size_clear _ _).symm)
  | eval b node named =>
    have inside := sound.inside _ named
    exact sound.addResult (node.eval_closed b sound.closed inside)
      (node.eval_grows b _ _).size_le fun v => node.eval_held b sound.closed inside

end Sound

/-- A host is sound at the start. -/
lemma sound_start : start.Sound where
  closed := Store.closed_empty.push none
  inside := by decide
  held := by simp [start]

/-- A step changes no link. -/
lemma Moves.precedes (moves : h.Moves h') : h.store.Precedes h'.store := by
  cases moves with
  | stay | clone | home | made | returned | found => exact .refl _
  | new => exact .push _ none
  | enclosed => exact .push _ _
  | set name => exact .set _ _ name _
  | clear => exact .clear _ _
  | eval b node =>
    rw [store, store, addResult_machine]
    exact .of_grows (node.eval_grows b _ _)

/-- Whatever steps a host takes, links stay. -/
lemma after_precedes (h : Host) (steps : List Step) : h.store.Precedes (h.after steps).store :=
  after_keeps (P := fun h' => h.store.Precedes h'.store)
    (fun held moves => held.trans moves.precedes) (.refl _) steps

/-- An evaluation through a handle leaves the machine that the node leaves. -/
lemma take_eval {k scope : Nat} (named : h.handles[k]? = some scope) (b : Bounds) (node : Node) :
    (h.take (.eval b node k)).2.machine = (node.eval b scope h.machine).2 := by
  simp [take, attempt, named]

/-- No knots. Let a host take any steps. Then its handles name scopes that are there; following
links ends from every scope, and look-ups along them do; being inside is a forest order on scopes;
and a scope opened inside another one is inside itself and what the other one is inside of, while no
scope there was is inside the new one. No step that follows changes a link. During an evaluation
through any handle all this is so at every point it comes by, and whenever a task ends, with the
links of each moment kept to the end; and each call opens its scope inside the one that the function
was made in. -/
theorem scopes_untied (steps later : List Step) :
    (∀ scope ∈ (start.after steps).handles, scope < (start.after steps).store.size) ∧
    (start.after steps).store.Untied ∧
    (start.after steps).store.Precedes (start.after (steps ++ later)).store ∧
    ∀ (b : Bounds) (node : Node) (k scope : Nat), (start.after steps).handles[k]? = some scope →
      ∀ now, (node.start scope (start.after steps).machine b.fuel).ComesBy b.limit now →
        now.machine.store.Untied ∧ (now.run b.limit).2.store.Untied ∧
        (start.after steps).store.Precedes now.machine.store ∧
        now.machine.store.Precedes (now.run b.limit).2.store ∧
        (now.run b.limit).2.store.Precedes
          ((start.after steps).take (.eval b node k)).2.store ∧
        ∀ f args, now.task = .call (.function f) args →
          f.scope < now.machine.store.size ∧
          (∀ a, (now.machine.enter f args).2.store.isWithin now.machine.store.size a = true ↔
            a = now.machine.store.size ∨ now.machine.store.isWithin f.scope a = true) ∧
          ∀ i, i < now.machine.store.size →
            (now.machine.enter f args).2.store.isWithin i now.machine.store.size = false := by
  -- Soundness is for handles, and for calls: a function was made in a scope that is there.
  have sound : (start.after steps).Sound := after_keeps Sound.moves sound_start steps
  refine ⟨sound.inside, Store.untied _, ?_, fun b node k scope named now path => ?_⟩
  · rw [after_append]
    exact after_precedes _ later
  · obtain ⟨before, during, afterwards⟩ := path.precedes
    refine ⟨Store.untied _, Store.untied _, before, during, ?_, fun f args => ?_⟩
    · rw [Host.store, take_eval named, Node.eval_eq, ← Eval.listed_snd, ← Node.run_task]
      exact afterwards
    · exact path.opens sound.closed (sound.inside scope (List.mem_of_getElem? named))

/-- The function `fn() { f() }`, made in the outermost scope. -/
def selfCall : Closure where
  identity := 0
  params := []
  body := ⟨[.exprStmt (.call (.identifier ⟨"f", .nowhere⟩) [] .nowhere) .nowhere], .nowhere⟩
  scope := 0

/-- Steps after which a function is stored in the scope it was made in, with a handle to the scope
from the function. -/
def tying : List Step :=
  [.eval ⟨1, 9⟩ (.statement (.letStmt ⟨"f", .nowhere⟩
    (.function [] selfCall.body .nowhere) .nowhere)) 0, .get 0 "f", .home 1]

/-- The scope leads to itself by the function, but not by links; no step afterwards ties a knot, and
the scope that a call of the function opens is inside the one where the function is stored. -/
theorem scopes_untied_tying :
    (start.after tying).store.Link 0 0 ∧ (start.after tying).handles[1]? = some 0 ∧
      0 < (start.after tying).store.size ∧ (start.after tying).store.Untied ∧
      (start.after tying).store.Precedes (start.after (tying ++ [.enclosed 1])).store ∧
      ((start.after tying).machine.enter selfCall []).2.store.isWithin
        (start.after tying).machine.store.size 0 = true := by
  have bound : (start.after tying).store.scope? 0 =
      some ⟨Bindings.empty.insert "f" (.function selfCall), none⟩ := by
    with_unfolding_all rfl
  have named : (start.after tying).handles[1]? = some 0 := by
    with_unfolding_all rfl
  have found : (start.after tying).store.get? 0 "f" = some (.function selfCall) := by
    with_unfolding_all rfl
  have callee : (Expr.identifier ⟨"f", .nowhere⟩).eval (call 1 9) 0 (start.after tying).machine =
      (.ok (.function selfCall), (start.after tying).machine) := by
    rw [Expr.eval, Eval.lookup_apply, ← store, found]
  have path : ((Node.expression (.call (.identifier ⟨"f", .nowhere⟩) [] .nowhere)).start 0
      (start.after tying).machine 9).ComesBy 1
      ⟨.call (.function selfCall) [], 0, (start.after tying).machine, 9⟩ :=
    .tail .refl (.part (.called callee (by rw [Expr.evalList]; rfl)))
  obtain ⟨inside, untied, kept, evaluations⟩ := scopes_untied tying [.enclosed 1]
  obtain ⟨_, _, _, _, _, opens⟩ := evaluations ⟨1, 9⟩ _ 1 0 named _ path
  refine ⟨.bound bound (List.mem_singleton_self _) rfl, named,
    inside 0 (List.mem_of_getElem? named), untied, kept, ?_⟩
  exact ((opens selfCall [] rfl).2.1 0).2 (.inr (Store.isWithin_refl _ 0))

end Host

end Monkey
