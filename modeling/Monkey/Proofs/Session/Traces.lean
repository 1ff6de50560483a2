import Mathlib.Tactic.Lemma
import Monkey.Proofs.Evaluation.Quiet
import Monkey.Proofs.Evaluation.Renaming
import Monkey.Proofs.Parser.RoundTrip
import Monkey.Session.Steps

/-!
# Traces

What one step of a session, or one run of an engine, leaves behind for the next. A session that is a
copy of another one under new names answers the same, step by step. A line without a `let` outside
of function bodies leaves such a copy behind, and so does a reset, of a session that has just begun.
Main statements: `takeAll_renamed`, `answers_quiet` and `leaves_no_trace`.
-/

namespace Monkey

variable {r : Renaming} {b : Bounds}

/-- What can be seen of a value does not tell its name. -/
@[simp] lemma Value.shown_rename (v : Value) : (v.rename r).shown = v.shown := by
  induction v with
  | returned v ih => exact congrArg Value.returned ih
  | _ => rfl

namespace Session

/-- The second session is a copy of the first one under new names. -/
structure Renamed (r : Renaming) (s s' : Session) : Prop where
  depth : s.machine.depth = s'.machine.depth
  store : s.machine.store.Renamed r s'.machine.store
  scope : s'.scope = r.scope s.scope
  inside : s.scope < s.machine.store.size

variable {s s' : Session}

/-- A line has the same answer in a session and in a copy of it, and both stay copies. -/
lemma evalLine_renamed (h : s.Renamed r s') (line : String) :
    (s'.evalLine b line).1.shown = (s.evalLine b line).1.shown ∧
      (s.evalLine b line).2.Renamed r (s'.evalLine b line).2 := by
  obtain ⟨m, i⟩ := s
  obtain ⟨m', _⟩ := s'
  obtain ⟨depth, store, rfl, inside⟩ := h
  simp only [evalLine]
  split
  · exact ⟨rfl, depth, store, rfl, inside⟩
  · split
    · exact ⟨rfl, depth, store, rfl, inside⟩
    · obtain ⟨w, le, left, right, value⟩ := Program.eval_rename b (Reading.ofSource line).program
        ⟨m, m', depth, store⟩ inside
      simp only at left right value
      generalize Program.eval b _ (r.scope i) m' = x at right value ⊢
      generalize Program.eval b _ i m = y at left value ⊢
      obtain ⟨_, _⟩ := x
      obtain ⟨v, _⟩ := y
      cases left
      cases right
      cases value
      cases v with
      | none => exact ⟨rfl, w.depth, w.renamed, rfl, Nat.lt_of_lt_of_le inside le.1⟩
      | some v =>
        refine ⟨?_, w.depth, w.renamed, rfl, Nat.lt_of_lt_of_le inside le.1⟩
        exact congrArg LineAnswer.value v.shown_rename

/-- A reset drops the bindings of a session and of its copy. -/
lemma reset_renamed (h : s.Renamed r s') : s.reset.Renamed r s'.reset := by
  have cleared := h.store.clear s.scope
  rw [← h.scope] at cleared
  refine ⟨h.depth, cleared.push none, cleared.scope_size.symm, ?_⟩
  show (s.machine.store.clear s.scope).size < ((s.machine.store.clear s.scope).push none).1.size
  simp

/-- A copy of a session has copies of the bindings. -/
lemma bindings_renamed (h : s.Renamed r s') :
    s'.bindings = s.bindings.map fun e => (e.1, e.2.rename r) := by
  simp only [bindings, h.scope, h.store.names, h.store.get?, List.map_filterMap, Option.map_map]
  rfl

/-- A step has the same answer in a session and in a copy of it, and both stay copies. -/
lemma take_renamed (h : s.Renamed r s') (step : Step) :
    (s'.take b step).1.shown = (s.take b step).1.shown ∧
      (s.take b step).2.Renamed r (s'.take b step).2 := by
  cases step with
  | line text =>
    obtain ⟨same, renamed⟩ := evalLine_renamed (b := b) h text
    exact ⟨congrArg Answer.line same, renamed⟩
  | bindings =>
    refine ⟨?_, h⟩
    show Answer.shown (.bindings s'.bindings) = Answer.shown (.bindings s.bindings)
    simp [bindings_renamed h, Answer.shown]
  | reset => exact ⟨rfl, reset_renamed h⟩

/-- Steps have the same answers in a session and in a copy of it, and both stay copies. -/
theorem takeAll_renamed (h : s.Renamed r s') (steps : List Step) :
    s'.answers b steps = s.answers b steps ∧ (s.after b steps).Renamed r (s'.after b steps) := by
  induction steps generalizing s s' with
  | nil => exact ⟨rfl, h⟩
  | cons step others ih =>
    obtain ⟨same, renamed⟩ := take_renamed (b := b) h step
    obtain ⟨rest, renamed⟩ := ih renamed
    exact ⟨congrArg₂ List.cons same rest, renamed⟩

/-- Steps may be taken in two goes. -/
lemma after_append (s : Session) (xs ys : List Step) :
    s.after b (xs ++ ys) = (s.after b xs).after b ys := by
  induction xs generalizing s with
  | nil => rfl
  | cons x xs ih => exact ih (s.take b x).2

/-- A line changes nothing, or its program is evaluated in the scope of the session. -/
lemma evalLine_session (b : Bounds) (s : Session) (line : String) :
    (s.evalLine b line).2 = s ∨ (Reading.ofSource line).diagnostics = [] ∧
      (s.evalLine b line).2 =
        ⟨((Reading.ofSource line).program.eval b s.scope s.machine).2, s.scope⟩ := by
  simp only [evalLine]
  split
  · exact .inl rfl
  · rename_i accepted
    split
    · exact .inl rfl
    · refine .inr ⟨by simpa using accepted, ?_⟩
      split
      · rename_i run
        rw [run]
      · rename_i run
        rw [run]

/-- No step leaves a call in progress. -/
lemma depth_take (s : Session) (step : Step) :
    (s.take b step).2.machine.depth = s.machine.depth := by
  cases step with
  | line text =>
    show (s.evalLine b text).2.machine.depth = s.machine.depth
    rcases s.evalLine_session b text with same | ⟨_, evaluated⟩
    · rw [same]
    · rw [evaluated]
      exact Node.eval_depth b (.program _) s.scope s.machine
  | bindings => rfl
  | reset => rfl

/-- No call is in progress between two steps. -/
lemma depth_after (s : Session) (steps : List Step) :
    (s.after b steps).machine.depth = s.machine.depth := by
  induction steps generalizing s with
  | nil => rfl
  | cons step others ih => exact (ih (s.take b step).2).trans (s.depth_take step)

/-- A session whose values were all made in it. -/
def Sound (s : Session) : Prop :=
  s.scope < s.machine.store.size ∧ s.machine.store.Binds s.machine.store.Made

/-- A session that has a copy is sound. -/
lemma Renamed.sound (h : s.Renamed r s') : s.Sound := ⟨h.inside, h.store.made⟩

/-- A session is a copy of what it was as long as its store has only grown. -/
lemma Sound.renamed (h : s.Sound) {m : Machine} (depth : m.depth = s.machine.depth)
    (grows : s.machine.store.Grows Store.untouched m.store)
    (closures : s.machine.store.closures ≤ m.store.closures) :
    s.Renamed (.grown s.machine.store m.store) ⟨m, s.scope⟩ where
  depth := depth.symm
  store := .of_grows h.2 grows closures
  scope := (movedUp_of_lt h.1).symm
  inside := h.1

/-- A sound session is a copy of itself. -/
lemma Sound.self (h : s.Sound) : s.Renamed (.grown s.machine.store s.machine.store) s :=
  h.renamed rfl (.refl _ _) (Nat.le_refl _)

/-- A session stays sound. -/
lemma Sound.after (h : s.Sound) (steps : List Step) : (s.after b steps).Sound :=
  (takeAll_renamed h.self steps).2.sound

/-- A new session is sound. -/
lemma sound_new : new.Sound := ⟨Nat.one_pos, (Store.Renamed.new .empty).made⟩

/-- A line that cannot be read, or has no `let` outside of function bodies. -/
def Quiet (line : String) : Prop :=
  (Reading.ofSource line).diagnostics ≠ [] ∨ (Reading.ofSource line).program.isQuiet

/-- After such a line a session is a copy of what it was. -/
lemma Sound.evalLine (h : s.Sound) {line : String} (quiet : Quiet line) :
    ∃ r, s.Renamed r (s.evalLine b line).2 := by
  rcases s.evalLine_session b line with same | ⟨accepted, evaluated⟩
  · rw [same]
    exact ⟨_, h.self⟩
  · rw [evaluated]
    have isQuiet := quiet.resolve_left (not_not_intro accepted)
    have self := h.self
    obtain ⟨w, le, left, _⟩ := Program.eval_rename b (Reading.ofSource line).program
      ⟨s.machine, s.machine, rfl, self.store⟩ h.1
    refine ⟨_, h.renamed (Node.eval_depth b (.program _) s.scope s.machine)
      (Program.eval_quiet b isQuiet s.scope s.machine) ?_⟩
    have closures := le.2
    rw [left] at closures
    exact closures

/-- Only a `let` outside of function bodies changes a session. After any steps, a line without one,
or one that cannot be read, may call any function that there is and end in any way: whatever steps
follow, what they show is what they would show without the line. So the same line again has the same
answer. -/
theorem answers_quiet (b : Bounds) (before next : List Step) {line : String}
    (quiet : Quiet line) :
    (new.after b (before ++ [.line line])).answers b next = (new.after b before).answers b next ∧
      ((new.after b (before ++ [.line line])).evalLine b line).1.shown =
        ((new.after b before).evalLine b line).1.shown := by
  obtain ⟨r, renamed⟩ := Sound.evalLine (b := b) (sound_new.after (b := b) before) quiet
  rw [after_append]
  exact ⟨(takeAll_renamed renamed next).1, (evalLine_renamed renamed line).1⟩

/-- The tokens of a `let` and a failing call in the body of a function that is called. -/
def callingTokens : List Token :=
  [⟨.fnWord, "fn", ⟨12, 14⟩⟩, ⟨.leftParen, "(", ⟨14, 15⟩⟩, ⟨.identifier, "y", ⟨15, 16⟩⟩,
    ⟨.rightParen, ")", ⟨16, 17⟩⟩, ⟨.leftBrace, "\x7b", ⟨18, 19⟩⟩, ⟨.letWord, "let", ⟨20, 23⟩⟩,
    ⟨.identifier, "x", ⟨24, 25⟩⟩, ⟨.assign, "=", ⟨26, 27⟩⟩, ⟨.identifier, "y", ⟨28, 29⟩⟩,
    ⟨.semicolon, ";", ⟨29, 30⟩⟩, ⟨.identifier, "f", ⟨31, 32⟩⟩, ⟨.leftParen, "(", ⟨32, 33⟩⟩,
    ⟨.identifier, "x", ⟨33, 34⟩⟩, ⟨.rightParen, ")", ⟨34, 35⟩⟩, ⟨.plus, "+", ⟨36, 37⟩⟩,
    ⟨.trueWord, "true", ⟨38, 42⟩⟩, ⟨.rightBrace, "\x7d", ⟨43, 44⟩⟩, ⟨.leftParen, "(", ⟨44, 45⟩⟩,
    ⟨.int, "2", ⟨45, 46⟩⟩, ⟨.rightParen, ")", ⟨46, 47⟩⟩]

open Grammar in
/-- They derive as the call of a function, so the `let` is inside its body. -/
lemma derives_callingTokens :
    ∃ params body span, Derives .call callingTokens
      (.call (.function params body span) [.literal (.integer 2) ⟨45, 46⟩] ⟨12, 47⟩) := by
  have name {x : String} {place : Span} :
      Derives .lowest [⟨.identifier, x, place⟩] (.identifier ⟨x, place⟩) :=
    (Derives.identifier rfl).loosen (by decide)
  have binds : DerivesStatement [⟨.letWord, "let", ⟨20, 23⟩⟩, ⟨.identifier, "x", ⟨24, 25⟩⟩,
      ⟨.assign, "=", ⟨26, 27⟩⟩, ⟨.identifier, "y", ⟨28, 29⟩⟩]
      (.letStmt ⟨"x", ⟨24, 25⟩⟩ (.identifier ⟨"y", ⟨28, 29⟩⟩) ⟨20, 29⟩) :=
    .letStmt rfl rfl rfl name
  have callee : Derives .call [⟨.identifier, "f", ⟨31, 32⟩⟩] (.identifier ⟨"f", ⟨31, 32⟩⟩) :=
    .identifier rfl
  have calls : Derives .call [⟨.identifier, "f", ⟨31, 32⟩⟩, ⟨.leftParen, "(", ⟨32, 33⟩⟩,
      ⟨.identifier, "x", ⟨33, 34⟩⟩, ⟨.rightParen, ")", ⟨34, 35⟩⟩]
      (.call (.identifier ⟨"f", ⟨31, 32⟩⟩) [.identifier ⟨"x", ⟨33, 34⟩⟩] ⟨31, 35⟩) :=
    .call callee rfl (.last name) rfl
  have fails : Derives .call [⟨.trueWord, "true", ⟨38, 42⟩⟩] (.literal (.boolean true) ⟨38, 42⟩) :=
    .trueWord rfl
  have adds := @Derives.binary .add ⟨.plus, "+", ⟨36, 37⟩⟩ _ _ _ _ (calls.loosen (by decide)) rfl
    (fails.loosen (by decide))
  have two : Derives .call [⟨.int, "2", ⟨45, 46⟩⟩] (.literal (.integer 2) ⟨45, 46⟩) :=
    .integer rfl (by decide)
  have body := DerivesStatements.ended binds (rfl : (⟨.semicolon, ";", ⟨29, 30⟩⟩ : Token).kind = _)
    (.bare (.exprStmt (adds.loosen (by decide))) next_nil .none)
  exact ⟨_, _, _, .call (.function rfl rfl (.last rfl) rfl (.braces rfl body rfl)) rfl
    (.last (two.loosen (by decide))) rfl⟩

open Grammar in
/-- There is no `let` in the line but in the body of the function that it calls. -/
lemma quiet_calling : Quiet "if (true) \x7b fn(y) \x7b let x = y; f(x) + true \x7d(2) \x7d" := by
  have tokens :
      (Cursor.ofSource "if (true) \x7b fn(y) \x7b let x = y; f(x) + true \x7d(2) \x7d").tokens =
      ⟨.ifWord, "if", ⟨0, 2⟩⟩ :: ⟨.leftParen, "(", ⟨3, 4⟩⟩ :: ([⟨.trueWord, "true", ⟨4, 8⟩⟩] ++
        ⟨.rightParen, ")", ⟨8, 9⟩⟩ :: ⟨.leftBrace, "\x7b", ⟨10, 11⟩⟩ ::
          (callingTokens ++ [⟨.rightBrace, "\x7d", ⟨48, 49⟩⟩])) := by
    decide +kernel
  have holds : Derives .call [⟨.trueWord, "true", ⟨4, 8⟩⟩] (.literal (.boolean true) ⟨4, 8⟩) :=
    .trueWord rfl
  obtain ⟨params, body, span, calls⟩ := derives_callingTokens
  have block : DerivesBlock
      (⟨.leftBrace, "\x7b", ⟨10, 11⟩⟩ :: (callingTokens ++ [⟨.rightBrace, "\x7d", ⟨48, 49⟩⟩]))
      ⟨[.exprStmt _ ⟨12, 47⟩], ⟨10, 49⟩⟩ :=
    .braces rfl (.bare (.exprStmt (calls.loosen (by decide))) next_nil .none) rfl
  have chooses : Derives .call (⟨.ifWord, "if", ⟨0, 2⟩⟩ :: ⟨.leftParen, "(", ⟨3, 4⟩⟩ ::
      ([⟨.trueWord, "true", ⟨4, 8⟩⟩] ++ ⟨.rightParen, ")", ⟨8, 9⟩⟩ :: _)) _ :=
    .conditional rfl rfl (holds.loosen (by decide)) rfl block
  have line := DerivesStatements.bare (.exprStmt (chooses.loosen (by decide))) next_nil .none
  rw [List.append_nil, ← tokens] at line
  refine .inr ?_
  rw [Reading.ofSource_of_derives line]
  rfl

/-- A line that calls a function of an earlier line, and fails in the call. -/
theorem answers_quiet_failing :
    Quiet "if (true) \x7b fn(y) \x7b let x = y; f(x) + true \x7d(2) \x7d" ∧
      (new.after ⟨0, 9⟩ ([.line "let x = 1; let f = fn(z) \x7b x \x7d;"] ++
          [.line "if (true) \x7b fn(y) \x7b let x = y; f(x) + true \x7d(2) \x7d"])).answers ⟨0, 9⟩
          [.line "f(0) == x", .bindings] =
        (new.after ⟨0, 9⟩ [.line "let x = 1; let f = fn(z) \x7b x \x7d;"]).answers ⟨0, 9⟩
          [.line "f(0) == x", .bindings] := by
  exact ⟨quiet_calling, (answers_quiet ⟨0, 9⟩ _ _ quiet_calling).1⟩

/-- A session that was reset is a copy of one that has just begun. -/
lemma new_renamed_reset (outermost : s.machine.depth = 0) :
    new.Renamed (.behind (s.machine.store.clear s.scope)) s.reset where
  depth := outermost.symm
  store := .new _
  scope := ((movedUp_of_le (Nat.zero_le 0)).trans (Nat.zero_add _)).symm
  inside := Nat.one_pos

end Session

namespace Engine

/-- A run leaves the engine as it was. -/
lemma runNamed_engine (b : Bounds) (e : Engine) (name : Option String) (source : String) :
    (e.runNamed b name source).2 = e := by
  have program : (e.runProgram b (Reading.ofSource source).program).2.depth = e.depth := by
    have same := Node.eval_depth b (.program (Reading.ofSource source).program) Store.empty.new.2
      ⟨Store.empty.new.1, e.depth⟩
    simp only [Node.eval] at same
    simp only [runProgram]
    generalize Program.eval b _ _ _ = x at same ⊢
    obtain ⟨_ | value, m⟩ := x
    · exact same
    · show (if m.store.captures value _ then m else _).depth = e.depth
      split <;> exact same
  simp only [runNamed]
  split
  · exact congrArg Engine.mk program
  · split <;> rfl

/-- Texts run one by one give what each would give alone. -/
lemma runAll_eq (b : Bounds) (e : Engine) (sources : List (Option String × String)) :
    (e.runAll b sources).1 = sources.map fun s => (e.runNamed b s.1 s.2).1 := by
  induction sources with
  | nil => rfl
  | cons s others ih =>
    obtain ⟨name, source⟩ := s
    simp only [runAll, runNamed_engine, ih, List.map_cons]

end Engine

/-- No evaluation leaves a trace outside its environment. Whichever way the evaluation of a node
ends, as many calls are in progress afterwards as before. So an engine answers each of any number of
sources as a new one would answer it alone, and a session that was reset shows, whatever steps
follow, what a new one would show. -/
theorem leaves_no_trace (b : Bounds) :
    (∀ (node : Node) (scope : Nat) (m : Machine), (node.eval b scope m).2.depth = m.depth) ∧
      (∀ sources : List (Option String × String),
        (Engine.fresh.runAll b sources).1 =
          sources.map fun s => (Engine.fresh.runNamed b s.1 s.2).1) ∧
      ∀ before next : List Session.Step,
        (Session.new.after b (before ++ [.reset])).answers b next = Session.new.answers b next := by
  refine ⟨Node.eval_depth b, Engine.runAll_eq b .fresh, fun before next => ?_⟩
  rw [Session.after_append]
  have outermost : (Session.new.after b before).machine.depth = 0 :=
    Session.depth_after Session.new before
  exact (Session.takeAll_renamed (Session.new_renamed_reset outermost) next).1

end Monkey
