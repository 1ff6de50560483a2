import Monkey.Engine
import Monkey.Proofs.Evaluation.Moments
import Monkey.Proofs.Parser.RoundTrip

/-!
# Everything inside the root

A run opens one outermost scope, its root. All other scopes are opened by calls, each inside the
scope that the function was made in, and so inside the root; and all functions that there are at a
point of the run were made in such scopes, be they bound, about to be called, or waiting for what
comes after the point (`Point.AtHand`). So a function that comes out of a run finds all scopes as
the run left them, and where the root is emptied at the end, nothing that comes out leads to a
scope. Main statement: `Engine.runNamed_rooted`.
-/

namespace Monkey

namespace Store

variable {s s' : Store} {root i : Nat}

/-- All scopes are inside this one. -/
def AllWithin (s : Store) (root : Nat) : Prop := ∀ i, i < s.size → s.isWithin i root = true

/-- A value was made inside a scope, if in any. -/
def MadeWithin (s : Store) (root : Nat) (v : Value) : Prop :=
  ∀ i, v.home? = some i → s.isWithin i root = true

/-- A value is bound in some scope. -/
def Bound (s : Store) (v : Value) : Prop :=
  ∃ i sc n, s.scope? i = some sc ∧ (n, v) ∈ sc.bindings.entries

/-- All scopes are inside this one, and so is what the values at hand were made in. -/
structure Rooted (s : Store) (root : Nat) (atHand : Value → Prop) : Prop where
  scopes : s.AllWithin root
  values : ∀ v, atHand v → s.MadeWithin root v

/-- A new root is all there is. -/
lemma allWithin_new : empty.new.1.AllWithin 0 := by
  intro i old
  obtain rfl : i = 0 := Nat.lt_one_iff.1 old
  exact isWithin_refl _ 0

/-- Whether all scopes are inside the root is a matter of links. -/
lemma AllWithin.of_precedes (within : s.AllWithin root) (precedes : s.Precedes s')
    (size : s'.size = s.size) : s'.AllWithin root := by
  intro i old
  rw [size] at old
  rw [precedes.isWithin old]
  exact within i old

/-- A scope that is opened inside the root is inside it too. -/
lemma AllWithin.enclosed (within : s.AllWithin root) (old : i < s.size) :
    (s.enclosed i).1.AllWithin root := by
  intro j there
  rw [Store.enclosed, size_push] at there
  rcases Nat.lt_succ_iff_lt_or_eq.1 there with older | rfl
  · rw [Store.enclosed, (Precedes.push s (some i)).isWithin older]
    exact within j older
  · exact (isWithin_enclosed old root).2 (.inr (within i old))

/-- What a store with all scopes inside the root holds was made there. -/
lemma AllWithin.madeWithin (within : s.AllWithin root) {v : Value} (held : s.Holds v) :
    s.MadeWithin root v :=
  fun i home => within i (held i home)

/-- Of the values that a store holds all of whose scopes are inside the root, the functions are
those that need the root. -/
lemma AllWithin.captures_iff (within : s.AllWithin root) {v : Value} (held : s.Holds v) :
    s.captures v root = true ↔ ∃ f, v = .function f := by
  constructor
  · intro captures
    cases v with
    | function f => exact ⟨f, rfl⟩
    | _ => cases captures
  · rintro ⟨f, rfl⟩
    exact within.madeWithin held f.scope rfl

/-- A closed store holds what it binds. -/
lemma Closed.holds (closed : s.Closed) {v : Value} (bound : s.Bound v) : s.Holds v := by
  obtain ⟨i, sc, n, found, entry⟩ := bound
  exact closed i sc n v found entry

/-- With what is bound and one value more that the store holds, everything is inside the root. -/
lemma AllWithin.rooted (within : s.AllWithin root) (closed : s.Closed) {v : Value}
    (held : s.Holds v) : s.Rooted root fun w => w = v ∨ s.Bound w where
  scopes := within
  values := by
    rintro w (rfl | bound)
    · exact within.madeWithin held
    · exact within.madeWithin (closed.holds bound)

end Store

namespace Agreement

/-- The agreement on machines with stores of this kind only. -/
def restrict (A : Agreement) (P : Store → Prop) : Agreement where
  World := { w : A.World // P (A.left w).store }
  left w := A.left w.1
  right w := A.right w.1
  le w w' := A.le w.1 w'.1
  scope w := A.scope w.1
  value w := A.value w.1
  stop w := A.stop w.1
  givesUp := A.givesUp
  refl w := A.refl w.1
  trans := A.trans
  scope_mono le := A.scope_mono le
  value_mono le := A.value_mono le
  plain w := A.plain w.1
  returned := A.returned
  failed w := A.failed w.1

/-- A kind of stores that is told from the links between scopes, and that a call keeps to. -/
structure Lasting (A : Agreement) (P : Store → Prop) : Prop where
  links : ∀ {s s' : Store}, s.Precedes s' → s'.size = s.size → P s → P s'
  enclosed : ∀ {w f}, A.value w (.function f) → P (A.left w).store →
    P ((A.left w).store.enclosed f.scope).1

variable {A : Agreement} {P : Store → Prop} {names : String → Prop}

/-- An agreement may be restricted to what is kept by the end. -/
lemma restrict_sim {α : Type} {V : A.World → α → α → Prop} {w : (A.restrict P).World} {x : Eval α}
    (sim : A.coupling.Sim V w.1 x x) (kept : P (x (A.left w.1)).2.store) :
    (A.restrict P).coupling.Sim (fun w => V w.1) w x x := by
  rcases sim with up | ⟨w', le, left, right, outcomes⟩
  · exact .inl up
  · refine .inr ⟨⟨w', ?_⟩, le, left, right, outcomes⟩
    show P (A.coupling.left w').store
    exact left ▸ kept

/-- Laws of an agreement hold of it restricted to what lasts. -/
lemma LawfulOn.restrict (law : A.LawfulOn names) (lasting : A.Lasting P) :
    (A.restrict P).LawfulOn names where
  lookup {w i} name inside := by
    refine restrict_sim (law.lookup name inside) ?_
    rw [Eval.lookup_apply]
    split <;> exact w.2
  assign {w i v} name inside good :=
    restrict_sim (law.assign name inside good)
      (lasting.links (.set _ i name v) (Store.size_set _ i name v) w.2)
  makeClosure {w i} params body spoken inside :=
    restrict_sim (law.makeClosure params body spoken inside)
      (lasting.links (.of_grows (.countClosure _)) rfl w.2)

/-- Laws of calls hold of it restricted to what lasts. -/
lemma LawfulCalls.restrict (h : A.LawfulCalls names) (lasting : A.Lasting P) :
    (A.restrict P).LawfulCalls names where
  same w := h.same w.1
  never := h.never
  stop := h.stop
  spoken := h.spoken
  enters {w f args} callee good := by
    obtain ⟨w', le, entered, inside⟩ := h.enters callee good
    have kept : P ((A.left w.1).enter f args).2.store :=
      Machine.bindParams_keeps (P := P) f.params
        (fun s name v _ => lasting.links (.set s _ name v) (Store.size_set s _ name v))
        (lasting.enclosed callee w.2)
    exact ⟨⟨w', entered ▸ kept⟩, le, entered, inside⟩
  leaves {w m i} inside ends := by
    obtain ⟨w', le, left⟩ := h.leaves inside ends
    have kept : P m.store := by
      rcases ends with kept | emptied
      · exact kept ▸ w.2
      · exact emptied ▸ lasting.links (.clear _ i) (Store.size_clear _ i) w.2
    exact ⟨⟨w', left ▸ kept⟩, le, left⟩

end Agreement

/-- What evaluations keep where all scopes are inside a root. -/
def rooted (root : Nat) : Agreement := holding.restrict (·.AllWithin root)

/-- Being rooted can be followed in one evaluation alone. -/
lemma rooted_alone (root limit : Nat) : (rooted root).Alone (fun _ => True) limit := by
  have lasting : holding.Lasting (·.AllWithin root) :=
    ⟨fun precedes size within => within.of_precedes precedes size,
      fun held within => within.enclosed (held _ rfl)⟩
  exact (holding_lawfulCalls.restrict lasting).alone (holding_lawful.restrict lasting) limit

/-- The values that a task begins with. -/
def Task.values : Task → List Value
  | .body last _ => [last]
  | .call callee given => callee :: given
  | _ => []

/-- A task that suits an agreement has values that do. -/
lemma Agreement.Suits.values {A : Agreement} {names : String → Prop} {w : A.World} {t : Task}
    (suits : A.Suits names w t) {v : Value} (mem : v ∈ t.values) : A.value w v := by
  cases t with
  | body last ss => exact List.mem_singleton.1 mem ▸ suits.1
  | call callee args =>
    rcases List.mem_cons.1 mem with rfl | mem
    · exact suits.1
    · exact suits.2 v mem
  | _ => cases mem

namespace Point

/-- The values at hand at a point that an evaluation comes by from `start` on. The task at the point
begins with some; others are bound in scopes, or wait for the task to end, because the tasks around
it began with them or came to them just before. -/
inductive AtHand (limit : Nat) (start : Point) : Point → Value → Prop where
  | bound {now v} :
    start.ComesBy limit now →
    now.machine.store.Bound v →
    AtHand limit start now v
  | given {now v} :
    start.ComesBy limit now →
    v ∈ now.task.values →
    AtHand limit start now v
  | before {now last next vs v} :
    start.ComesBy limit now →
    Starts limit now last →
    last.run limit = (.ok vs, next.machine) →
    v ∈ vs →
    Starts limit now next →
    AtHand limit start next v
  | around {now next v} :
    AtHand limit start now v →
    Starts limit now next →
    AtHand limit start next v

/-- The values at hand when the task at a point has ended: those from before, those that it came to,
and those that are bound by then. -/
inductive AtEnd (limit : Nat) (start now : Point) : Value → Prop where
  | before {v} :
    AtHand limit start now v →
    AtEnd limit start now v
  | value {vs v} :
    (now.run limit).1 = .ok vs →
    v ∈ vs →
    AtEnd limit start now v
  | returned {v} :
    (now.run limit).1 = .error (.returned v) →
    AtEnd limit start now v
  | bound {v} :
    (now.run limit).2.store.Bound v →
    AtEnd limit start now v

variable {limit root : Nat} {start now : Point} {v : Value}

/-- From the point on all is inside the root. -/
def InRoot (root : Nat) (now : Point) : Prop :=
  ∃ w : (rooted root).World, (rooted root).Stands (fun _ => True) w now

/-- What begins inside the root comes by points inside it only. -/
lemma InRoot.comesBy (h : start.InRoot root) (path : start.ComesBy limit now) : now.InRoot root :=
  h.imp fun _ => (rooted_alone root limit).comesBy path

/-- What holds when a task has ended that begins inside the root. -/
lemma InRoot.ends (h : now.InRoot root) (limit : Nat) :
    (now.run limit).2.store.AllWithin root ∧ (now.run limit).2.store.Closed ∧
      (∀ vs, (now.run limit).1 = .ok vs → ∀ v ∈ vs, (now.run limit).2.store.Holds v) ∧
      ∀ v, (now.run limit).1 = .error (.returned v) → (now.run limit).2.store.Holds v := by
  obtain ⟨_, w, _, machine, inside, suits⟩ := h
  obtain ⟨⟨⟨m, closed⟩, within⟩, _, ended, value, stop⟩ :=
    (rooted_alone root limit).task now.fuel now.task inside suits
  rw [machine] at ended value stop
  cases ended
  exact ⟨within, closed, value, fun v run => stop _ run v rfl⟩

/-- What holds when a task begins inside the root. -/
lemma InRoot.begins (h : now.InRoot root) :
    now.machine.store.AllWithin root ∧ now.machine.store.Closed ∧
      ∀ v ∈ now.task.values, now.machine.store.Holds v := by
  obtain ⟨_, ⟨⟨m, closed⟩, within⟩, _, machine, _, suits⟩ := h
  cases machine
  exact ⟨within, closed, fun v => suits.values⟩

/-- What is at hand at a point is held there. -/
lemma AtHand.holds (h : start.InRoot root) (atHand : AtHand limit start now v) :
    now.machine.store.Holds v := by
  induction atHand with
  | bound path bound => exact (h.comesBy path).begins.2.1.holds bound
  | given path mem => exact (h.comesBy path).begins.2.2 _ mem
  | before path last run mem _ =>
    have held := ((h.comesBy (path.tail last)).ends limit).2.2.1
    rw [run] at held
    exact held _ rfl _ mem
  | around _ starts ih => exact ih.mono starts.precedes.size_le

/-- What is at hand when a task ends is held there. -/
lemma AtEnd.holds (h : start.InRoot root) (path : start.ComesBy limit now)
    (atEnd : AtEnd limit start now v) : (now.run limit).2.store.Holds v := by
  obtain ⟨_, closed, value, returned⟩ := (h.comesBy path).ends limit
  cases atEnd with
  | before atHand => exact (atHand.holds h).mono (precedes_run limit _ _ _ _).size_le
  | value run mem => exact value _ run _ mem
  | returned run => exact returned _ run
  | bound bound => exact closed.holds bound

/-- An evaluation that begins inside the root keeps to it at each of its points. -/
theorem ComesBy.rooted (path : start.ComesBy limit now) (h : start.InRoot root) :
    now.machine.store.Rooted root (AtHand limit start now) ∧
      (now.run limit).2.store.Rooted root (AtEnd limit start now) := by
  have begins := (h.comesBy path).begins.1
  have ends := ((h.comesBy path).ends limit).1
  exact ⟨⟨begins, fun _ atHand => begins.madeWithin (atHand.holds h)⟩,
    ⟨ends, fun _ atEnd => ends.madeWithin (atEnd.holds h path)⟩⟩

end Point

/-- A value in which no `return` is on its way out was made in a scope only if it is a function. -/
lemma Value.home?_eq_none {v : Value} (returned : ∀ w, v ≠ .returned w)
    (function : ∀ f, v ≠ .function f) : v.home? = none := by
  cases v with
  | returned w => exact absurd rfl (returned w)
  | function f => exact absurd rfl (function f)
  | _ => rfl

namespace Engine

variable {b : Bounds} {e : Engine} {p : Program} {v : Value} {m : Machine}

/-- The outermost scope of a run. -/
def root : Nat := Store.empty.new.2

/-- The machine that a run begins with: a new store, with the root in it. -/
def outset (e : Engine) : Machine := ⟨Store.empty.new.1, e.depth⟩

/-- Where the run of a program begins. -/
def start (b : Bounds) (e : Engine) (p : Program) : Point :=
  (Node.program p).start root e.outset b.fuel

/-- A run begins inside the root. -/
lemma start_inRoot (b : Bounds) (e : Engine) (p : Program) : (e.start b p).InRoot root := by
  have closed : e.outset.store.Closed := Store.closed_empty.push none
  exact ⟨⟨⟨e.outset, closed⟩, Store.allWithin_new⟩, _, (rooted root).refl _, rfl, Nat.one_pos,
    holding_suits ⟨e.outset, closed⟩ (.program p)⟩

/-- What comes of the evaluation of a program in a new store is no `return`. -/
lemma eval_ne_returned (b : Bounds) (e : Engine) (p : Program) (v : Value) :
    (p.eval b root e.outset).1 ≠ some (.returned v) := by
  let w : Precinct .data := ⟨e.outset, _, .of_meets_new (i := root) fun v met =>
    absurd met (Store.not_meets_new v)⟩
  obtain ⟨given, handed⟩ := w.statements_data id b p (.inl .refl) (w.suits_task _)
  exact (Eval.finish_data given handed).1 v

/-- A run empties its root, unless a function made inside comes out. -/
lemma runProgram_eq (b : Bounds) (e : Engine) (p : Program) :
    e.runProgram b p =
      match p.eval b root e.outset with
      | (none, m) => (none, m)
      | (some v, m) =>
        (some v, if m.store.captures v root then m else ⟨m.store.clear root, m.depth⟩) := rfl

/-- A value that a source runs to is what the evaluation of its program comes to. -/
lemma eval_of_runNamed {name : Option String} {source : String}
    (ran : (e.runNamed b name source).1 = .value v) :
    ∃ m, (Reading.ofSource source).program.eval b root e.outset = (some v, m) := by
  simp only [runNamed, runProgram_eq] at ran
  split at ran
  · generalize (Reading.ofSource source).program.eval b root e.outset = run at ran
    obtain ⟨_ | w, m⟩ := run
    · cases ran
    · cases ran
      exact ⟨m, rfl⟩
  · split at ran <;> cases ran

/-- When the evaluation of a program in a new store has come to a value, the store holds it, and all
scopes are inside the root. -/
lemma rooted_of_eval (ends : p.eval b root e.outset = (some v, m)) :
    m.store.AllWithin root ∧ m.store.Closed ∧ m.store.Holds v := by
  have machine : ((e.start b p).run b.limit).2 = m := congrArg Prod.snd ends
  obtain ⟨within, closed, _⟩ := (e.start_inRoot b p).ends b.limit
  have held : (p.eval b root e.outset).2.store.Holds v :=
    Node.eval_held b (.program p) (Store.closed_empty.push none) Nat.one_pos
      (congrArg Prod.fst ends)
  rw [machine] at within closed
  rw [ends] at held
  exact ⟨within, closed, held⟩

/-- A run that comes to a function leaves the machine as the evaluation left it; else it empties the
root, and the value leads to no scope. -/
lemma runProgram_of_eval (ends : p.eval b root e.outset = (some v, m)) :
    ∃ m', e.runProgram b p = (some v, m') ∧
      m'.store.Rooted root (fun w => w = v ∨ m'.store.Bound w) ∧
      (∀ f, v = .function f → m' = m) ∧
      ((∀ f, v ≠ .function f) →
        m'.store = m.store.clear root ∧ ∀ s i, ¬ Store.ReachedFrom s v i) := by
  obtain ⟨within, closed, held⟩ := rooted_of_eval ends
  by_cases isFunction : ∃ f, v = .function f
  · refine ⟨m, ?_, within.rooted closed held, fun _ _ => rfl, fun other => ?_⟩
    · rw [runProgram_eq, ends]
      exact congrArg _ (if_pos ((within.captures_iff held).2 isFunction))
    · obtain ⟨f, eq⟩ := isFunction
      exact absurd eq (other f)
  · have none : v.home? = none :=
      Value.home?_eq_none (fun w eq => eval_ne_returned b e p w (by rw [ends, eq]))
        fun f eq => isFunction ⟨f, eq⟩
    have emptied : (m.store.clear root).AllWithin root :=
      within.of_precedes (.clear _ _) (Store.size_clear _ _)
    refine ⟨⟨m.store.clear root, m.depth⟩, ?_,
      emptied.rooted (closed.clear root) (.of_home_eq_none none), ?_, fun _ => ⟨rfl, ?_⟩⟩
    · rw [runProgram_eq, ends]
      exact congrArg _ (if_neg fun captures => isFunction ((within.captures_iff held).1 captures))
    · exact fun f eq => absurd ⟨f, eq⟩ isFunction
    · rintro s i ⟨j, home, _⟩
      cases none.symm.trans home

/-- Everything in a run is inside its root. Let a source be run, whether under a name or not. At
each point that the evaluation comes by, and each time a task has ended, all scopes are inside the
root, and so are the scopes that all functions at hand were made in. If the run comes to a function,
the root is not emptied: the run leaves the machine as the evaluation left it. If it comes to
anything else, the root is emptied, and no scope is reached from the value. -/
theorem runNamed_rooted (b : Bounds) (e : Engine) (name : Option String) (source : String) :
    (∀ now, (e.start b (Reading.ofSource source).program).ComesBy b.limit now →
      now.machine.store.Rooted root
          (Point.AtHand b.limit (e.start b (Reading.ofSource source).program) now) ∧
        (now.run b.limit).2.store.Rooted root
          (Point.AtEnd b.limit (e.start b (Reading.ofSource source).program) now)) ∧
      ∀ v, (e.runNamed b name source).1 = .value v →
        ∃ m m', (Reading.ofSource source).program.eval b root e.outset = (some v, m) ∧
          e.runProgram b (Reading.ofSource source).program = (some v, m') ∧
          m'.store.Rooted root (fun w => w = v ∨ m'.store.Bound w) ∧
          (∀ f, v = .function f → m' = m) ∧
          ((∀ f, v ≠ .function f) →
            m'.store = m.store.clear root ∧ ∀ s i, ¬ Store.ReachedFrom s v i) := by
  refine ⟨fun now path => path.rooted (e.start_inRoot b _), fun v ran => ?_⟩
  obtain ⟨m, ends⟩ := eval_of_runNamed ran
  obtain ⟨m', runs⟩ := runProgram_of_eval ends
  exact ⟨m, m', ends, runs⟩

/-- The text of a call of a function that gives a function made in the call. -/
def makingSource : String := "fn(x) \x7b fn() \x7b x \x7d \x7d(1)"

/-- The function that is made in the call. -/
def made : Closure where
  identity := 1
  params := []
  body := ⟨[.exprStmt (.identifier ⟨"x", ⟨15, 16⟩⟩) ⟨15, 16⟩], ⟨13, 18⟩⟩
  scope := 1

/-- The function that is called. -/
def maker : Closure where
  identity := 0
  params := [⟨"x", ⟨3, 4⟩⟩]
  body := ⟨[.exprStmt (.function [] made.body ⟨8, 18⟩) ⟨8, 18⟩], ⟨6, 20⟩⟩
  scope := root

/-- Where the call begins. -/
def making : Point where
  task := .call (.function maker) [.integer 1]
  scope := root
  machine := ⟨fresh.outset.store.countClosure, 0⟩
  fuel := 9

open Grammar in
/-- The text derives from the grammar as the call of a function that makes a function. -/
lemma ofSource_makingSource : Reading.ofSource makingSource =
    ⟨⟨[.exprStmt (.call (.function maker.params maker.body ⟨0, 20⟩) [.literal (.integer 1) ⟨21, 22⟩]
      ⟨0, 23⟩) ⟨0, 23⟩]⟩, []⟩ := by
  have tokens : (Cursor.ofSource makingSource).tokens =
      [⟨.fnWord, "fn", ⟨0, 2⟩⟩, ⟨.leftParen, "(", ⟨2, 3⟩⟩, ⟨.identifier, "x", ⟨3, 4⟩⟩,
        ⟨.rightParen, ")", ⟨4, 5⟩⟩, ⟨.leftBrace, "\x7b", ⟨6, 7⟩⟩, ⟨.fnWord, "fn", ⟨8, 10⟩⟩,
        ⟨.leftParen, "(", ⟨10, 11⟩⟩, ⟨.rightParen, ")", ⟨11, 12⟩⟩,
        ⟨.leftBrace, "\x7b", ⟨13, 14⟩⟩, ⟨.identifier, "x", ⟨15, 16⟩⟩,
        ⟨.rightBrace, "\x7d", ⟨17, 18⟩⟩, ⟨.rightBrace, "\x7d", ⟨19, 20⟩⟩,
        ⟨.leftParen, "(", ⟨20, 21⟩⟩, ⟨.int, "1", ⟨21, 22⟩⟩, ⟨.rightParen, ")", ⟨22, 23⟩⟩] := by
    decide +kernel
  have name : Derives .call [⟨.identifier, "x", ⟨15, 16⟩⟩] (.identifier ⟨"x", ⟨15, 16⟩⟩) :=
    .identifier rfl
  have one : Derives .call [⟨.int, "1", ⟨21, 22⟩⟩] (.literal (.integer 1) ⟨21, 22⟩) :=
    .integer rfl (by decide)
  have inner : DerivesBlock [⟨.leftBrace, "\x7b", ⟨13, 14⟩⟩, ⟨.identifier, "x", ⟨15, 16⟩⟩,
      ⟨.rightBrace, "\x7d", ⟨17, 18⟩⟩] made.body :=
    .braces rfl (.bare (.exprStmt (name.loosen (by decide))) next_nil .none) rfl
  have function : Derives .call [⟨.fnWord, "fn", ⟨8, 10⟩⟩, ⟨.leftParen, "(", ⟨10, 11⟩⟩,
      ⟨.rightParen, ")", ⟨11, 12⟩⟩, ⟨.leftBrace, "\x7b", ⟨13, 14⟩⟩,
      ⟨.identifier, "x", ⟨15, 16⟩⟩, ⟨.rightBrace, "\x7d", ⟨17, 18⟩⟩]
      (.function [] made.body ⟨8, 18⟩) :=
    .function rfl rfl .none rfl inner
  refine Reading.ofSource_of_derives ?_
  rw [tokens]
  exact .bare (.exprStmt ((Derives.call (.function rfl rfl (.last rfl) rfl
    (.braces rfl (.bare (.exprStmt (function.loosen (by decide))) next_nil .none) rfl)) rfl
    (.last (one.loosen (by decide))) rfl).loosen (by decide))) next_nil .none

/-- The function that is about to be called was made in the root, and the one that comes out of the
call inside the call; so the run, which gives that function away, does not empty the root. -/
theorem runNamed_rooted_making :
    (fresh.start ⟨0, 9⟩ (Reading.ofSource makingSource).program).ComesBy 0 making ∧
      making.machine.store.MadeWithin root (.function maker) ∧
      (making.run 0).2.store.MadeWithin root (.function made) ∧
      (fresh.runNamed ⟨0, 9⟩ none makingSource).1 = .value (.function made) ∧
      fresh.runProgram ⟨0, 9⟩ (Reading.ofSource makingSource).program =
        (Reading.ofSource makingSource).program.eval ⟨0, 9⟩ root fresh.outset := by
  have callee : (Expr.function maker.params maker.body ⟨0, 20⟩).eval (call 0 9) root fresh.outset =
      (.ok (.function maker), making.machine) := rfl
  have path : (fresh.start ⟨0, 9⟩ (Reading.ofSource makingSource).program).ComesBy 0 making := by
    rw [ofSource_makingSource]
    refine .tail (.tail (.tail .refl (.part .statement)) (.part .value)) (.part ?_)
    exact .called callee rfl
  have ran : (fresh.runNamed ⟨0, 9⟩ none makingSource).1 = .value (.function made) := by
    rw [runNamed, ofSource_makingSource]
    rfl
  have value : (making.run 0).1 = .ok [.function made] := rfl
  obtain ⟨points, ends⟩ := runNamed_rooted ⟨0, 9⟩ fresh none makingSource
  obtain ⟨begins, ended⟩ := points making path
  obtain ⟨m, m', evaluated, runs, _, same, _⟩ := ends _ ran
  refine ⟨path, begins.values _ (.given path List.mem_cons_self),
    ended.values _ (.value value (List.mem_singleton_self _)), ran, ?_⟩
  rw [evaluated, runs, same made rfl]

end Engine

end Monkey
