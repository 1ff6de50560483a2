import Mathlib.Data.Nat.SuccPred
import Mathlib.Order.SuccPred.Archimedean
import Monkey.Proofs.Evaluation.Course
import Monkey.Proofs.Evaluation.Kind

/-!
# The limit on calls

A limit on calls cuts an evaluation off or leaves it as it is. Under two bounds of which the second
covers the first, the first evaluation comes by points that the second one comes by
(`Point.ComesBy.forward`), and if the first one does not give up it comes by all of them
(`Point.ComesBy.back`). So an evaluation that is not cut off is the unlimited one, and one that is
cut off is so where the unlimited one goes deeper. Main statement: `Program.ends_limited`.
-/

namespace Monkey

open Bounds (Covers)

variable {limit limit' n n' : Nat} {givesUp : Stop → Prop}

/-- A value that is handed back is no lack of fuel. -/
lemma returned_ne_outOfFuel (v : Value) : Stop.returned v ≠ .outOfFuel := by
  intro eq
  cases eq

/-- A part of a task begins as deep in calls as the task. -/
lemma Part.depth {i : Nat} {t t' : Task} {m m' : Machine}
    (h : Part (call limit n) i t m t' m') : m'.depth = m.depth := by
  refine h.kept (P := fun m' => m'.depth = m.depth) (fun t₁ m₁ vs m₂ _ ok same => ?_) rfl
  rcases concur_run returned_ne_outOfFuel (Covers.of_le (Nat.le_refl n)) t₁ i with
    ⟨_, stopped, _⟩ | ⟨_, kept, _⟩
  · rw [ok] at stopped
    cases stopped
  · rw [ok] at kept
    exact kept.trans same

/-- A call uses one unit of fuel for one more call in progress. -/
lemma Starts.depth {now next : Point} (h : Starts limit now next) :
    next.machine.depth + next.fuel = now.machine.depth + now.fuel := by
  cases h with
  | part part => exact congrArg (· + _) part.depth
  | @entered f args i m n _ _ =>
    show (m.enter f args).2.depth + n = m.depth + (n + 1)
    rw [Machine.enter_eq]
    exact Nat.succ_add_eq_add_succ _ _

/-- Each call takes one unit of fuel, wherever the evaluation comes by. -/
lemma Point.ComesBy.depth {now next : Point} (h : now.ComesBy limit next) :
    next.machine.depth + next.fuel = now.machine.depth + now.fuel := by
  induction h with
  | refl => rfl
  | tail _ starts ih => exact starts.depth.trans ih

/-- The point with other fuel. -/
def Point.refuel (now : Point) (n : Nat) : Point := { now with fuel := n }

/-- Under bounds that cover others an evaluation goes on where it goes on under the others. -/
lemma Starts.forward {now next : Point} (noReturn : ∀ v, ¬ givesUp (.returned v))
    (h : Covers givesUp now.machine.depth ⟨limit, now.fuel⟩ ⟨limit', n'⟩)
    (starts : Starts limit now next) :
    ∃ k, Starts limit' (now.refuel n') (next.refuel k) ∧
      Covers givesUp next.machine.depth ⟨limit, next.fuel⟩ ⟨limit', k⟩ := by
  cases starts with
  | @part t i m n t' m' part =>
    refine ⟨n', .part (part.transfer fun t₁ m₁ vs m₂ left _ ok => ?_), ?_⟩
    · have covers : Covers givesUp m₁.depth ⟨limit, n⟩ ⟨limit', n'⟩ := left.depth.symm ▸ h
      rcases concur_run noReturn covers t₁ i with ⟨_, stopped, _⟩ | ⟨same, _⟩
      · rw [ok] at stopped
        cases stopped
      · exact same.symm.trans ok
    · exact part.depth.symm ▸ h
  | @entered f args i m n arity allowed =>
    obtain ⟨limits, left, right⟩ := id h
    simp only at limits left right allowed
    cases n' with
    | zero => omega
    | succ k =>
      refine ⟨k, .entered arity ?_, h.deeper⟩
      show ¬ (0 < limit' ∧ limit' ≤ m.depth)
      omega

/-- The evaluation from the point on does not give up. -/
def Point.GoesOn (givesUp : Stop → Prop) (limit : Nat) (now : Point) : Prop :=
  ∀ s, givesUp s → (now.run limit).1 ≠ .error s

/-- An evaluation that does not give up has parts that do not. -/
lemma Starts.goesOn {now next : Point} (noReturn : ∀ v, ¬ givesUp (.returned v))
    (starts : Starts limit now next) (goesOn : now.GoesOn givesUp limit) :
    next.GoesOn givesUp limit := fun s up stopped =>
  goesOn s up (starts.stops (fun _ eq => noReturn _ (eq ▸ up)) stopped)

/-- Under bounds that others cover an evaluation goes on where it goes on under the others, if it
does not give up. -/
lemma Starts.back (now : Point) {next' : Point} (noReturn : ∀ v, ¬ givesUp (.returned v))
    (h : Covers givesUp now.machine.depth ⟨limit, now.fuel⟩ ⟨limit', n'⟩)
    (goesOn : now.GoesOn givesUp limit) (starts : Starts limit' (now.refuel n') next') :
    ∃ k, Starts limit now (next'.refuel k) ∧
      Covers givesUp next'.machine.depth ⟨limit, k⟩ ⟨limit', next'.fuel⟩ := by
  obtain ⟨t, i, m, n⟩ := now
  generalize same : Point.refuel ⟨t, i, m, n⟩ n' = now' at starts
  cases starts with
  | @part _ _ _ _ t' m' part =>
    cases same
    refine ⟨n, .part (part.transfer fun t₁ m₁ vs m₂ _ right ok => ?_), part.depth.symm ▸ h⟩
    have covers : Covers givesUp m₁.depth ⟨limit, n⟩ ⟨limit', n'⟩ := right.depth.symm ▸ h
    rcases concur_run noReturn covers t₁ i with ⟨s, stopped, up⟩ | ⟨same, _⟩
    · exact absurd (right.stops stopped) (goesOn s up)
    · exact same.trans ok
  | @entered f args _ _ k arity allowed =>
    cases same
    obtain ⟨limits, left, right⟩ := id h
    simp only at limits left right
    -- To refuse a call that the other bounds allow, or to lack fuel for it, would be to give up.
    have allowed' : ¬ (0 < limit ∧ limit ≤ m.depth) := by
      intro exceeded
      rcases limits with sameLimit | ⟨_, up, _⟩
      · exact allowed (sameLimit ▸ exceeded)
      · exact goesOn _ up (Eval.listed_eq_error_iff.2 (call_refused arity exceeded))
    cases n with
    | zero =>
      rcases left with up | enough
      · exact absurd (Eval.listed_eq_error_iff.2 (call_exhausted arity allowed')) (goesOn _ up)
      · omega
    | succ n => exact ⟨n, .entered arity allowed', h.deeper⟩

namespace Point

variable {now next : Point}

/-- Nor does it give up from any point on that it comes by. -/
lemma ComesBy.goesOn (noReturn : ∀ v, ¬ givesUp (.returned v)) (path : now.ComesBy limit next)
    (goesOn : now.GoesOn givesUp limit) : next.GoesOn givesUp limit := by
  induction path with
  | refl => exact goesOn
  | tail _ starts ih => exact starts.goesOn noReturn ih

/-- Under bounds that cover others an evaluation comes by the same points. -/
lemma ComesBy.forward (noReturn : ∀ v, ¬ givesUp (.returned v))
    (h : Covers givesUp now.machine.depth ⟨limit, now.fuel⟩ ⟨limit', n'⟩)
    (path : now.ComesBy limit next) :
    ∃ k, (now.refuel n').ComesBy limit' (next.refuel k) ∧
      Covers givesUp next.machine.depth ⟨limit, next.fuel⟩ ⟨limit', k⟩ := by
  induction path with
  | refl => exact ⟨n', .refl, h⟩
  | tail _ starts ih =>
    obtain ⟨k, path', covers⟩ := ih
    obtain ⟨k', starts', covers'⟩ := starts.forward noReturn covers
    exact ⟨k', .tail path' starts', covers'⟩

/-- It comes by no others, unless it gives up under the others. -/
lemma ComesBy.back (now : Point) (noReturn : ∀ v, ¬ givesUp (.returned v))
    (h : Covers givesUp now.machine.depth ⟨limit, now.fuel⟩ ⟨limit', n'⟩)
    (goesOn : now.GoesOn givesUp limit) {next' : Point}
    (path : (now.refuel n').ComesBy limit' next') :
    ∃ k, now.ComesBy limit (next'.refuel k) ∧
      Covers givesUp next'.machine.depth ⟨limit, k⟩ ⟨limit', next'.fuel⟩ := by
  induction path with
  | refl => exact ⟨now.fuel, .refl, h⟩
  | @tail mid _ _ starts ih =>
    obtain ⟨k, path', covers⟩ := ih
    obtain ⟨k', starts', covers'⟩ := Starts.back (mid.refuel k) noReturn covers
      (path'.goesOn noReturn goesOn) starts
    exact ⟨k', .tail path' starts', covers'⟩

end Point

/-- No operator complains about the depth of calls. -/
lemma PrefixOp.apply_ne (op : PrefixOp) (a : Value) (l : Nat) :
    op.apply a ≠ .error (.callDepthExceeded l) := by
  cases op <;> cases a <;> simp [apply]

/-- No operator exceeds the limit on calls. -/
lemma InfixOp.apply_ne (op : InfixOp) (a b : Value) (l : Nat) :
    op.apply a b ≠ .error (.callDepthExceeded l) := by
  unfold apply
  split
  · cases op <;> simp only [applyIntegers] <;> try split
    all_goals
      intro eq
      cases eq
  · cases op <;> simp [applyStrings]
  · intro eq
    split at eq
    · cases eq
    · split at eq <;> cases eq

/-- Where the error about the depth of calls is raised, a call is refused. -/
lemma Raises.refused {now : Point} {l : Nat} (h : Raises limit now (.callDepthExceeded l)) :
    ∃ f args, now.task = .call (.function f) args ∧ f.params.length = args.length ∧
      0 < limit ∧ limit ≤ now.machine.depth := by
  generalize same : RuntimeError.callDepthExceeded l = error at h
  cases h with
  | prefixOp _ refused => exact absurd (same ▸ refused) (PrefixOp.apply_ne _ _ _)
  | infixOp _ _ refused => exact absurd (same ▸ refused) (InfixOp.apply_ne _ _ _ _)
  | @callDepthExceeded f args _ _ _ arity pos le => exact ⟨f, args, rfl, arity, pos, le⟩
  | _ => cases same

/-- The values that are no errors. -/
def Value.Kind.noError : Value.Kind where
  holds v := ∀ error, v ≠ .error error
  names _ := True
  plain plain error eq := by
    subst eq
    cases plain
  function _ := iff_of_true (fun _ eq => by cases eq) fun _ _ => trivial

namespace Program

variable {p : Program} {scope : Nat} {m m' m'' : Machine} {v v' : Value}

/-- The evaluation of a program in a scope, with a limit on calls, ends with a value and leaves a
machine behind. -/
def Ends (p : Program) (limit scope : Nat) (m : Machine) (v : Value) (m' : Machine) : Prop :=
  ∃ fuel, p.eval ⟨limit, fuel⟩ scope m = (some v, m')

/-- Where the evaluation of a program begins. -/
def start (p : Program) (scope : Nat) (m : Machine) (fuel : Nat) : Point :=
  ⟨.body .null p.statements, scope, m, fuel⟩

/-- At some point of the unlimited evaluation of a program so many calls are in progress. -/
def InProgress (p : Program) (scope : Nat) (m : Machine) (calls : Nat) : Prop :=
  ∃ fuel now, (p.start scope m fuel).ComesBy 0 now ∧ now.machine.depth = calls

/-- The way an evaluation that is cut off stops. -/
def Cut (limit : Nat) (s : Stop) : Prop := s = .failed (.callDepthExceeded limit)

/-- A value that is handed back is not cut off. -/
lemma returned_not_cut (v : Value) : ¬ Cut limit (.returned v) := by
  intro eq
  cases eq

/-- A higher limit, or none, covers one where being cut off counts as giving up. -/
lemma covers_of_cut (pos : 0 < limit) (above : limit' = 0 ∨ limit ≤ limit') {fuel : Nat}
    (enough : limit ≤ fuel) (depth : Nat) :
    Covers (Cut limit) depth ⟨limit, limit⟩ ⟨limit', fuel⟩ :=
  ⟨.inr ⟨pos, rfl, above⟩, .inr ⟨pos, Nat.le_add_right _ _⟩,
    .inr ⟨pos, Nat.le_add_right_of_le enough⟩⟩

/-- What a program ends with is what its statements come to. -/
lemma eval_eq_iff {b : Bounds} : p.eval b scope m = (some v, m') ↔
    Eval.finish ((Node.program p).run (call b.limit b.fuel) scope m).1 = some v ∧
      ((Node.program p).run (call b.limit b.fuel) scope m).2 = m' :=
  Prod.ext_iff

/-- An evaluation that ends does so with more fuel too. -/
lemma eval_mono {fuel fuel' : Nat} (le : fuel ≤ fuel')
    (ended : p.eval ⟨limit, fuel⟩ scope m = (some v, m')) :
    p.eval ⟨limit, fuel'⟩ scope m = (some v, m') := by
  rw [eval_eq_iff] at ended ⊢
  have concur : Concur (· = .outOfFuel) m.depth ((Node.program p).run (call limit fuel) scope m)
      ((Node.program p).run (call limit fuel') scope m) :=
    Node.run_concur returned_ne_outOfFuel (Covers.of_le le) (.program p) scope
  rcases concur with ⟨_, stopped, rfl⟩ | ⟨same, _⟩
  · rw [stopped] at ended
    cases ended.1
  · rwa [← same]

/-- An evaluation ends in one way only. -/
lemma Ends.unique (h : p.Ends limit scope m v m') (h' : p.Ends limit scope m v' m'') :
    v = v' ∧ m' = m'' := by
  obtain ⟨fuel, ended⟩ := h
  obtain ⟨fuel', ended'⟩ := h'
  have one := eval_mono (Nat.le_max_left fuel fuel') ended
  have other := eval_mono (Nat.le_max_right fuel fuel') ended'
  cases one.symm.trans other
  exact ⟨rfl, rfl⟩

/-- A program that ends does not run out of fuel. -/
lemma goesOn_of_eval {fuel : Nat} (ended : p.eval ⟨limit, fuel⟩ scope m = (some v, m')) :
    (p.start scope m fuel).GoesOn (· = .outOfFuel) limit := by
  rintro _ rfl stopped
  have stopped : ((Node.program p).run (call limit fuel) scope m).1 = .error .outOfFuel :=
    Eval.listed_eq_error_iff.1 stopped
  rw [eval_eq_iff] at ended
  simp only [stopped] at ended
  cases ended.1

/-- An evaluation that is not cut off is the same under all greater limits and under none. -/
lemma ends_of_not_cut (pos : 0 < limit) (whole : (p.start scope m limit).GoesOn (Cut limit) limit) :
    ∃ v m', ∀ limit', limit' = 0 ∨ limit ≤ limit' → p.Ends limit' scope m v m' := by
  have agree {limit' : Nat} (above : limit' = 0 ∨ limit ≤ limit') :
      Concur (Cut limit) m.depth ((Node.program p).run (call limit limit) scope m)
        ((Node.program p).run (call limit' limit) scope m) :=
    Node.run_concur returned_not_cut (covers_of_cut pos above (Nat.le_refl _) _) (.program p) scope
  have stays {s : Stop} (stopped : ((Node.program p).run (call limit limit) scope m).1 = .error s)
      (cut : Cut limit s) : False :=
    whole s cut (Eval.listed_eq_error_iff.2 stopped)
  rcases agree (.inr (Nat.le_refl _)) with ⟨s, stopped, cut⟩ | ⟨_, _, ends⟩
  · exact (stays stopped cut).elim
  · obtain ⟨v, value⟩ := Option.ne_none_iff_exists'.1 fun none =>
      ends ((Node.program p).answer_eq_none_iff.1 none)
    refine ⟨v, ((Node.program p).run (call limit limit) scope m).2, fun limit' above => ?_⟩
    rcases agree above with ⟨s, stopped, cut⟩ | ⟨same, _⟩
    · exact (stays stopped cut).elim
    · refine ⟨limit, eval_eq_iff.2 ?_⟩
      rw [← same]
      exact ⟨value, rfl⟩

/-- The unlimited evaluation goes no deeper than there is fuel for under bounds that it covers and
under which the evaluation does not give up. -/
lemma inProgress_le {fuel calls : Nat} (noReturn : ∀ v, ¬ givesUp (.returned v))
    (covers : ∀ fuel', fuel ≤ fuel' → Covers givesUp m.depth ⟨limit, fuel⟩ ⟨0, fuel'⟩)
    (goesOn : (p.start scope m fuel).GoesOn givesUp limit) (reached : p.InProgress scope m calls) :
    calls ≤ m.depth + fuel := by
  obtain ⟨fuel', now, path, rfl⟩ := reached
  -- With more fuel the unlimited evaluation comes by the same points.
  obtain ⟨k, path, _⟩ := path.forward returned_ne_outOfFuel
    (Covers.of_le (Nat.le_max_right fuel fuel'))
  obtain ⟨k', path, _⟩ := Point.ComesBy.back (p.start scope m fuel) noReturn
    (covers _ (Nat.le_max_left fuel fuel')) goesOn path
  have budget : now.machine.depth + k' = m.depth + fuel := path.depth
  omega

/-- Where an evaluation is cut off, the unlimited one goes deeper than the limit. -/
lemma exists_inProgress (pos : 0 < limit)
    (cut : ((p.start scope m limit).run limit).1 = .error (.failed (.callDepthExceeded limit)))
    (ends : p.Ends 0 scope m v m') : ∃ calls, limit < calls ∧ p.InProgress scope m calls := by
  obtain ⟨fuel, ended⟩ := ends
  obtain ⟨⟨task, i, m₁, n⟩, path, raised⟩ := Point.exists_raises cut
  obtain ⟨f, args, rfl, arity, _, deep⟩ := raised.refused
  obtain ⟨k, path, _⟩ := path.forward returned_not_cut
    (covers_of_cut pos (.inl rfl) (Nat.le_max_left limit fuel) _)
  have allowed : ¬ (0 < 0 ∧ 0 ≤ m₁.depth) := fun h => Nat.lt_irrefl 0 h.1
  cases k with
  | zero =>
    -- Without a limit the call is not refused, and there is fuel for it.
    have goesOn := goesOn_of_eval (eval_mono (Nat.le_max_right limit fuel) ended)
    exact absurd (Eval.listed_eq_error_iff.2 (call_exhausted arity allowed))
      (path.goesOn returned_ne_outOfFuel goesOn _ rfl)
  | succ k =>
    refine ⟨m₁.depth + 1, Nat.lt_succ_of_le deep, max limit fuel, _,
      path.tail (.entered arity allowed), ?_⟩
    rw [Machine.enter_eq]

/-- The unlimited evaluation of a program does not come to an error about a limit. -/
lemma Ends.ne_callDepthExceeded (met : ∀ error, ¬ m.store.Meets scope (.error error))
    (ends : p.Ends 0 scope m v m') (l : Nat) : v ≠ .error (.callDepthExceeded l) := by
  rintro rfl
  obtain ⟨fuel, ended⟩ := ends
  rw [eval_eq_iff] at ended
  obtain ⟨holds, _⟩ := (Node.program p).run_keeps Value.Kind.noError ⟨0, fuel⟩
    (fun v' met' e eq => met e (eq ▸ met')) fun _ _ => trivial
  generalize run : ((Node.program p).run (call 0 fuel) scope m).1 = r at ended holds
  rcases r with (v' | e | _) | v'
  · cases ended.1
    exact holds _ (.inr rfl) _ rfl
  · cases ended.1
    have fails : ((p.start scope m fuel).run 0).1 = _ := Eval.listed_eq_error_iff.2 run
    obtain ⟨now, _, raised⟩ := Point.exists_raises fails
    obtain ⟨_, _, _, _, pos, _⟩ := raised.refused
    exact Nat.lt_irrefl 0 pos
  · cases ended.1
  · cases ended.1
    exact holds _ (.inl rfl) _ rfl

/-- The unlimited evaluation of a program that ends has a largest number of calls in progress. -/
lemma Ends.exists_isGreatest (ends : p.Ends 0 scope m v m') :
    ∃ D, IsGreatest {calls | p.InProgress scope m calls} D := by
  obtain ⟨fuel, ended⟩ := ends
  refine BddAbove.exists_isGreatest_of_nonempty ⟨m.depth + fuel, fun calls reached => ?_⟩
    ⟨m.depth, fuel, p.start scope m fuel, .refl, rfl⟩
  exact inProgress_le returned_ne_outOfFuel (fun _ => Covers.of_le) (goesOn_of_eval ended) reached

/-- A limit on calls cuts an evaluation off or leaves it as it is. From a scope where no error value
is met, with no call in progress, the evaluation of a program under a limit ends with the error that
says so, or with the value and the machine with which it ends under every greater limit and under
none. If it ends under none, there is a largest number of calls that are in progress in it at once,
and then the evaluation under a limit ends with its value if and only if this number is within the
limit, and leaves its machine behind. -/
theorem ends_limited (pos : 0 < limit) (p : Program) {scope : Nat} {m : Machine}
    (outermost : m.depth = 0) (met : ∀ error, ¬ m.store.Meets scope (.error error)) :
    ((∃ m', p.Ends limit scope m (.error (.callDepthExceeded limit)) m') ∨
      ∃ v m', ∀ limit', limit' = 0 ∨ limit ≤ limit' → p.Ends limit' scope m v m') ∧
    ∀ v m', p.Ends 0 scope m v m' →
      ∃ D, IsGreatest {calls | p.InProgress scope m calls} D ∧
        ∀ m'', p.Ends limit scope m v m'' ↔ D ≤ limit ∧ m'' = m' := by
  by_cases cut : ((p.start scope m limit).run limit).1 =
    .error (.failed (.callDepthExceeded limit))
  · have ended : p.Ends limit scope m (.error (.callDepthExceeded limit))
        ((Node.program p).run (call limit limit) scope m).2 := by
      have stopped : ((Node.program p).run (call limit limit) scope m).1 = _ :=
        Eval.listed_eq_error_iff.1 cut
      exact ⟨limit, eval_eq_iff.2 ⟨congrArg Eval.finish stopped, rfl⟩⟩
    refine ⟨.inl ⟨_, ended⟩, fun v m' ends => ?_⟩
    obtain ⟨D, greatest⟩ := ends.exists_isGreatest
    refine ⟨D, greatest, fun m'' => ⟨fun same => ?_, fun within => ?_⟩⟩
    -- Cut off, the evaluation ends otherwise, and the unlimited one goes deeper than the limit.
    · exact absurd (same.unique ended).1 (ends.ne_callDepthExceeded met limit)
    · obtain ⟨calls, deep, reached⟩ := exists_inProgress pos cut ends
      exact absurd (Nat.lt_of_lt_of_le deep (greatest.2 reached)) (Nat.not_lt.2 within.1)
  · have whole : (p.start scope m limit).GoesOn (Cut limit) limit := fun _ stop stopped =>
      cut (stop ▸ stopped)
    obtain ⟨w, n, same⟩ := ends_of_not_cut pos whole
    refine ⟨.inr ⟨w, n, same⟩, fun v m' ends => ?_⟩
    obtain ⟨D, greatest⟩ := ends.exists_isGreatest
    obtain ⟨rfl, rfl⟩ := ends.unique (same 0 (.inl rfl))
    have limited := same limit (.inr (Nat.le_refl _))
    -- Not cut off, the evaluation comes by all points of the unlimited one, none deeper than its
    -- fuel.
    refine ⟨D, greatest, fun m'' => ⟨fun other => ?_, fun within => ?_⟩⟩
    · have within := inProgress_le returned_not_cut
        (fun fuel' enough => covers_of_cut pos (.inl rfl) enough _) whole greatest.1
      rw [outermost, Nat.zero_add] at within
      exact ⟨within, (other.unique limited).2⟩
    · exact within.2 ▸ limited

/-- The program `let f = fn(n) { if (n == 0) { 0 } else { f(n - 1) } }; f(1)`. -/
def countdown : Program := ⟨[
  .letStmt ⟨"f", .nowhere⟩ (.function [⟨"n", .nowhere⟩] ⟨[.exprStmt (.conditional
    (.binary .eq (.identifier ⟨"n", .nowhere⟩) (.literal (.integer 0) .nowhere) .nowhere)
    ⟨[.exprStmt (.literal (.integer 0) .nowhere) .nowhere], .nowhere⟩
    (some ⟨[.exprStmt (.call (.identifier ⟨"f", .nowhere⟩) [.binary .sub
      (.identifier ⟨"n", .nowhere⟩) (.literal (.integer 1) .nowhere) .nowhere] .nowhere) .nowhere],
      .nowhere⟩) .nowhere) .nowhere], .nowhere⟩ .nowhere) .nowhere,
  .exprStmt (.call (.identifier ⟨"f", .nowhere⟩) [.literal (.integer 1) .nowhere] .nowhere)
    .nowhere]⟩

/-- Two calls are in progress at once in it, so that it is cut off under the limit 1, and not under
the limit 2. -/
theorem ends_limited_countdown :
    (∃ m', countdown.Ends 1 0 ⟨Store.empty.new.1, 0⟩ (.error (.callDepthExceeded 1)) m') ∧
      (∃ m', ∀ limit, limit = 0 ∨ 2 ≤ limit →
        countdown.Ends limit 0 ⟨Store.empty.new.1, 0⟩ (.integer 0) m') ∧
      IsGreatest {calls | countdown.InProgress 0 ⟨Store.empty.new.1, 0⟩ calls} 2 := by
  let m : Machine := ⟨Store.empty.new.1, 0⟩
  have met : ∀ error, ¬ m.store.Meets 0 (.error error) := fun _ => Store.not_meets_new _
  have one : (countdown.eval ⟨1, 1⟩ 0 m).1 = some (.error (.callDepthExceeded 1)) := by
    with_unfolding_all rfl
  have two : (countdown.eval ⟨2, 2⟩ 0 m).1 = some (.integer 0) := by
    with_unfolding_all rfl
  have cut : countdown.Ends 1 0 m _ _ := ⟨1, Prod.ext one rfl⟩
  have whole : countdown.Ends 2 0 m _ _ := ⟨2, Prod.ext two rfl⟩
  obtain ⟨⟨_, cut'⟩ | ⟨v, m', same⟩, limited⟩ := ends_limited (show 0 < 2 by decide) countdown
    rfl met
  · cases (whole.unique cut').1
  · obtain ⟨rfl, _⟩ := whole.unique (same 2 (.inr (Nat.le_refl 2)))
    have unlimited := same 0 (.inl rfl)
    obtain ⟨D, greatest, agrees⟩ := limited _ _ unlimited
    obtain ⟨D', greatest', agrees'⟩ :=
      (ends_limited (show 0 < 1 by decide) countdown rfl met).2 _ _ unlimited
    obtain rfl := greatest.unique greatest'
    have within : D ≤ 2 := ((agrees m').1 (same 2 (.inr (Nat.le_refl 2)))).1
    have deep : ¬ D ≤ 1 := by
      intro le
      cases (((agrees' m').2 ⟨le, rfl⟩).unique cut).1
    obtain rfl : D = 2 := by omega
    exact ⟨⟨_, cut⟩, ⟨m', same⟩, greatest⟩

end Program

end Monkey
