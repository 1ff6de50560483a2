import Mathlib.Data.List.TakeWhile
import Monkey.Proofs.Parser.Following
import Monkey.Proofs.Parser.Recovery

/-!
# Totality of reading

The loops that read a program along a position all end, on every list of tokens, and give what the
readers give: fuel for eight calls inside each other per token is enough. On the way the position
stays at or before the first marker of the end, and the statement begins at or before the position;
so there is a token at every place that is looked at. Each round of a loop steps over a token or
breaks off. What is read depends on the tokens up to the first marker only. Main statement:
`Walk.program_total`.
-/

open Monkey.Parser Monkey.Grammar

namespace Monkey

namespace Walk

/-- The walk steps over a token at least, or breaks off. -/
def Proceeds {α : Type} (x : Walk α) (w : Walker) : Prop :=
  (∃ a w', x w = some (.ok a, w') ∧ w.current < w'.current) ∨
    ∃ w', x w = some (.error .broken, w')

/-- The rounds of all loops proceed: of the loops over parameters, arguments, operators and the
statements of a block, and, before the end, of the loop over the statements of a program. That one
does not break off. -/
structure Progresses (tokens : List Token) (fuel stop : Nat) (w : Walker) : Prop where
  param : Proceeds (Walk.param tokens) w
  argument : Proceeds (Walk.argument tokens fuel) w
  operator : ∀ left, Proceeds (Walk.operator tokens fuel left) w
  statement : Proceeds (Walk.statement tokens fuel) w
  segment : w.current < stop →
    ∃ s w', Walk.segment tokens fuel w = some (.ok s, w') ∧ w.current < w'.current

end Walk

namespace Track

variable {k : Track} {α β : Type} {w w' : Walker} {x : Walk α} {f : α → Walk β} {t last : Token}
  {ts rest : List Token} {fuel : Nat}

section Rounds

/-- Where fewer tokens are left, a walker stands further on. -/
lemma At.lt_of_shorter (h : k.At w ts) (h' : k.At w' rest) (shorter : rest.length < ts.length) :
    w.current < w'.current := by
  rw [← h.2, ← h'.2, List.length_drop, List.length_drop] at shorter
  omega

/-- A reader that leaves less is followed by a walk that proceeds. -/
lemma Follows.proceeds {r : Except Failure (α × List Token)} (h : k.Follows w x r)
    (stands : k.At w ts) (shorter : ∀ a rest, r = .ok (a, rest) → rest.length < ts.length) :
    Walk.Proceeds x w := by
  cases h with
  | reads run _ stands' => exact .inl ⟨_, _, run, stands.lt_of_shorter stands' (shorter _ _ rfl)⟩
  | breaks run => exact .inr ⟨_, run⟩

/-- A walk that proceeds still does so if another one comes behind it. -/
lemma Follows.proceeds_bind {r : Except Failure (α × List Token)} (h : k.Follows w x r)
    (stands : k.At w ts) (shorter : ∀ a rest, r = .ok (a, rest) → rest.length < ts.length)
    (next : ∀ a rest w', r = .ok (a, rest) → k.At w' rest → ∃ r', k.Follows w' (f a) r') :
    Walk.Proceeds (x >>= f) w := by
  cases h with
  | breaks run => exact .inr ⟨_, bind_of_error run⟩
  | @reads a _ _ run _ stands' =>
    have lt := stands.lt_of_shorter stands' (shorter _ _ rfl)
    obtain ⟨r', further⟩ := next a _ _ rfl stands'
    cases further with
    | reads run' moves => exact .inl ⟨_, _, (bind_of_some run).trans run', by
        have := moves.forward
        omega⟩
    | breaks run' => exact .inr ⟨_, (bind_of_some run).trans run'⟩

/-- Behind a walk one may look for a token of a kind. -/
lemma At.acceptance (h : k.At w ts) (a : α) (kind : TokenKind) :
    ∃ r, k.Follows w (do return (a, ← Walk.accept k.tokens kind)) r := by
  rcases next_or kind ts with ⟨t, ts, rfl, same⟩ | other
  · exact ⟨_, (h.accept same).andThen fun _ => .pure⟩
  · exact ⟨_, .look (h.accept_of_ne other) (.pure h)⟩

/-- A round of the loop over parameters proceeds. -/
lemma At.param_proceeds (h : k.At w ts) : Walk.Proceeds (Walk.param k.tokens) w :=
  h.name.proceeds_bind h (fun _ _ => shorter_of_plain) fun x _ _ _ stands => stands.acceptance x _

/-- A round of the loop over arguments proceeds. -/
lemma At.argument_proceeds (enough : 8 * ts.length + 3 ≤ fuel) (h : k.At w ts) :
    Walk.Proceeds (Walk.argument k.tokens fuel) w := by
  obtain ⟨fuel, rfl, still⟩ := exists_fuel enough
  rw [Walk.argument]
  exact ((followed k ts).expression still h).proceeds_bind h (fun _ _ => shorter_of_plain)
    fun e _ _ _ stands => stands.acceptance e _

/-- A walk breaks off where the reader does. -/
lemma Follows.broken {failure : Failure} (h : k.Follows w x (.error failure)) :
    ∃ w', x w = some (.error .broken, w') := by
  generalize eq : Except.error failure = r at h
  cases h with
  | reads => cases eq
  | breaks run => exact ⟨_, run⟩

/-- At the end nothing is stepped over. -/
lemma At.advance_nil (h : k.At w []) : ∃ t, Walk.advance k.tokens w = some (.ok t, w) := by
  have lt : w.current - 1 < k.tokens.length := by
    have := h.1
    simp only [tokens, List.length_append, List.length_cons]
    omega
  refine ⟨k.tokens[w.current - 1], (bind_of_some h.isAtEnd).trans ?_⟩
  show Walk.token k.tokens (w.current - 1) w = _
  simp only [Walk.token, List.getElem?_eq_getElem lt]
  rfl

/-- A round of the loop over operators proceeds. -/
lemma At.operator_proceeds (enough : 8 * ts.length + 3 ≤ fuel) (h : k.At w ts) (left : Expr) :
    Walk.Proceeds (Walk.operator k.tokens fuel left) w := by
  have peek := h.peek
  obtain ⟨fuel, rfl, still⟩ := exists_fuel enough
  rw [Walk.operator, Walk.Proceeds, bind_of_some peek, ← Walk.Proceeds]
  cases ts with
  | nil =>
    obtain ⟨t, last⟩ := h.advance_nil
    rw [List.headD_nil, k.isEof]
    refine .inr ?_
    have broken : k.Follows w (Walk.expression k.tokens fuel (Walk.precedence .eof)) _ :=
      (followed k []).expression still h
    rw [plain_expression, plain_operand_nil] at broken
    obtain ⟨w', run⟩ := broken.broken
    exact ⟨w', (bind_of_some last).trans (bind_of_error run)⟩
  | cons t ts =>
    have less : 8 * ts.length + 5 ≤ fuel := by grind
    rw [List.headD_cons]
    split
    · rename_i kind
      refine (h.consume_of_eq kind).proceeds_bind h (by grind) fun _ rest w' read stands => ?_
      cases read
      exact ⟨_, stands.arguments (fun p => Expr.call left p.1 (left.span.merge p.2))
        (followed k _) less⟩
    · refine h.advance.proceeds_bind h (by grind) fun t rest w' read stands => ?_
      cases read
      exact ⟨_, ((followed k _).expression (by omega) stands).bind
        (g := fun p =>
          .ok (.binary (Walk.infixOp t.kind) left p.1 (left.span.merge p.1.span), p.2))
        fun _ _ _ _ => .pure⟩

/-- A round of the loop over statements proceeds. -/
lemma At.statement_proceeds (enough : 8 * ts.length + 3 ≤ fuel) (h : k.At w ts) :
    Walk.Proceeds (Walk.statement k.tokens fuel) w :=
  (h.statement (fun _ => followed k _) enough).proceeds h fun _ _ => shorter_of_plain

end Rounds

section Recovery

/-- The walker has just stepped over a token. -/
def Passed (k : Track) (w : Walker) (last : Token) : Prop :=
  ∃ i, w.current = i + 1 ∧ k.tokens[i]? = some last

/-- Who has stepped over a token has passed it. -/
lemma At.passed (h : k.At w (t :: ts)) (h' : k.At w' ts) : k.Passed w' t := by
  have lt := h.lt
  have next : w'.current = w.current + 1 := by
    have := congrArg List.length h.2
    have := congrArg List.length h'.2
    have := h'.1
    simp only [List.length_drop, List.length_cons] at *
    omega
  refine ⟨w.current, next, ?_⟩
  rw [← List.head?_drop, tokens, List.drop_append_of_le_length h.1, h.2]
  rfl

/-- The token that was passed is the previous one. -/
lemma Passed.previous (h : k.Passed w last) :
    Walk.previous k.tokens w = some (.ok last, w) := by
  obtain ⟨i, current, found⟩ := h
  refine (bind_of_some (x := get) rfl).trans ?_
  simp only [current, Walk.token, found]
  rfl

/-- A walker skips what is skipped behind a fault. -/
lemma At.skip (enough : ts.length + 1 ≤ fuel) (h : k.At w ts) (passed : k.Passed w last)
    (depth : Nat) :
    k.Follows w (Walk.skip k.tokens fuel depth) (.ok ((), Parser.skip depth last ts)) := by
  induction fuel generalizing w depth last ts with
  | zero => omega
  | succ fuel ih =>
    rw [Walk.skip]
    cases ts with
    | nil => exact .look h.isAtEnd (.pure h)
    | cons t ts =>
      rw [Parser.skip]
      refine .look h.isAtEnd (.look passed.previous ?_)
      by_cases ends : last.kind = .semicolon ∧ depth = 0
      · simpa only [if_pos ends] using .pure h
      · simp only [if_neg ends]
        refine .look (show Walk.peek k.tokens w = some (.ok t, w) from h.peek) ?_
        by_cases begins :
            braceDepth depth last = 0 ∧ (t.kind = .letWord ∨ t.kind = .returnWord)
        · simpa only [if_pos begins] using .pure h
        · simp only [if_neg begins]
          refine h.advance.andThen fun w' stands => ?_
          exact ih (Nat.le_of_succ_le_succ enough) stands (h.passed stands) _

/-- The tokens between two places where the walker stood. -/
lemma At.slice {u : List Token} (h : k.At w (u ++ rest)) (h' : k.At w' rest) :
    Walk.slice k.tokens w.current w'.current w' = some (.ok u, w') := by
  have length := congrArg List.length h.2
  have length' := congrArg List.length h'.2
  have within := h.1
  have within' := h'.1
  simp only [List.length_drop, List.length_append] at length length'
  have le : w.current ≤ w'.current := by omega
  have inside : w'.current ≤ k.tokens.length := by
    rw [tokens, List.length_append]
    omega
  have steps : w'.current - w.current = u.length := by omega
  have taken : (k.tokens.drop w.current).take (w'.current - w.current) = u := by
    rw [tokens, List.drop_append_of_le_length h.1, h.2, steps, List.append_assoc, List.take_left]
  rw [Walk.slice, if_pos ⟨le, inside⟩, taken]
  rfl

/-- Going on behind a statement that broke off. -/
lemma At.synchronize {u : List Token} (enough : rest.length + 1 ≤ fuel) (h : k.At w (u ++ rest))
    (h' : k.At w' rest) (start : w'.start = w.current) :
    k.Follows w' (Walk.synchronize k.tokens fuel) (.ok ((), resume (u ++ rest) rest.length)) := by
  rw [Walk.synchronize]
  refine .look (x := get) rfl (.look (start ▸ h.slice h') ?_)
  cases rest with
  | nil =>
    obtain ⟨t, last⟩ := h'.advance_nil
    rw [List.length_nil, resume_nil]
    refine .look last ?_
    obtain ⟨fuel, rfl, -⟩ := exists_fuel enough
    rw [Walk.skip]
    exact .look h'.isAtEnd (.pure h')
  | cons t rest =>
    rw [resume_cons]
    exact h'.advance.andThen fun w'' stands =>
      stands.skip (Nat.le_of_succ_le enough) (h'.passed stands) _

end Recovery

section Program

/-- A place on the track, at or behind the beginning of the statement. -/
def Within (k : Track) (s : Standing) : Prop := s.start ≤ s.current ∧ s.current ≤ k.before.length

/-- The walk gives a value, has reported diagnostics, and stops before the given tokens. -/
def Ends (k : Track) (w : Walker) (x : Walk α) (a : α) (reported : List Diagnostic)
    (rest : List Token) : Prop :=
  ∃ w', x w = some (.ok a, w') ∧ k.At w' rest ∧ w'.diagnostics = w.diagnostics ++ reported ∧
    ∀ s ∈ w'.trail, s ∈ w.trail ∨ k.Within s

/-- In one statement a walker stays between its beginning and the marker. -/
lemma Moves.within (h : k.Moves w w') (started : w.start ≤ w.current) :
    ∀ s ∈ w'.trail, s ∈ w.trail ∨ k.Within s := fun s mem =>
  (h.trail s mem).imp_right fun ⟨start, forward, within⟩ =>
    ⟨start ▸ Nat.le_trans started forward, within⟩

/-- What is between two places of a walker are the tokens that it stepped over. -/
lemma At.append (h : k.At w ts) (h' : k.At w' rest) (forward : w.current ≤ w'.current) :
    ∃ u, ts = u ++ rest := by
  refine ⟨ts.take (w'.current - w.current), ?_⟩
  have dropped : ts.drop (w'.current - w.current) = rest := by
    rw [← h.2, ← h'.2, List.drop_drop, Nat.add_sub_cancel' forward]
  rw [← dropped, List.take_append_drop]

/-- From one place before the marker, all that is left there is known by its length. -/
lemma At.eq_of_length {u rest' : List Token} (h : k.At w (u ++ rest)) (h' : k.At w' rest')
    (same : rest'.length = rest.length) : rest' = rest := by
  have suffix : rest <:+ k.before := (List.suffix_append u rest).trans (h.2 ▸ List.drop_suffix _ _)
  have suffix' : rest' <:+ k.before := h'.2 ▸ List.drop_suffix _ _
  exact (List.suffix_of_suffix_length_le suffix' suffix (Nat.le_of_eq same)).eq_of_length same

/-- A walk gives the value that the reader gives, and moves to where that stops. -/
lemma Follows.of_ok {a : α} (h : k.Follows w x (.ok (a, rest))) :
    ∃ w', x w = some (.ok a, w') ∧ k.Moves w w' ∧ k.At w' rest ∧
      w'.diagnostics = w.diagnostics := by
  generalize eq : Except.ok (a, rest) = r at h
  cases h with
  | breaks => cases eq
  | reads run moves stands same =>
    cases eq
    exact ⟨_, run, moves, stands, same⟩

/-- A walk that does what a reader does that breaks off stops at the same token. -/
lemma Follows.of_fail {u : List Token} {fault : Fault} (h : k.Follows w x (fail fault rest))
    (stands : k.At w (u ++ rest)) :
    ∃ w', x w = some (.error .broken, w') ∧ k.Moves w w' ∧ k.At w' rest ∧
      w'.diagnostics = w.diagnostics ++ [fault.diagnostic (rest.headD k.stop)] := by
  generalize eq : (fail fault rest : Except Failure (α × List Token)) = r at h
  cases h with
  | reads => cases eq
  | @breaks _ rest' _ run moves stands' reported =>
    injection eq with eq
    injection eq with eq length
    subst eq
    cases stands.eq_of_length stands' length.symm
    exact ⟨_, run, moves, stands', reported⟩

/-- Where the walker stands, a statement can be read, or it breaks off at a token with a fault that
fits it. -/
lemma At.statement_cases (h : k.At w ts) :
    (∃ s rest, Reads (Parser.statement ts) s rest) ∨
      ∃ u rest fault, ts = u ++ rest ∧ Parser.statement ts = fail fault rest ∧
        fault.Fits (rest.headD k.stop) := by
  have follows := h.statement (fun _ => followed k _) (Nat.le_refl (8 * ts.length + 3))
  generalize eq : plain (Parser.statement ts) = r at follows
  cases follows with
  | reads => exact .inl ⟨_, _, plain_eq_ok_iff.1 eq⟩
  | breaks run moves stands reported fits =>
    obtain ⟨u, whole⟩ := h.append stands moves.forward
    exact .inr ⟨u, _, _, whole, plain_eq_error_iff.1 eq, fits⟩

/-- The place where a statement begins is noted when its round begins. -/
lemma At.begin (h : k.At w ts) :
    ∃ w₁ : Walker, (∀ fuel, Walk.segment k.tokens fuel w =
        (Walk.attempt (Walk.statement k.tokens fuel) >>= fun
          | some s => Pure.pure (some s)
          | none => Walk.synchronize k.tokens fuel >>= fun _ => Pure.pure none) w₁) ∧
      k.At w₁ ts ∧ w₁.start = w₁.current ∧ w₁.diagnostics = w.diagnostics ∧
      ∀ s ∈ w₁.trail, s ∈ w.trail ∨ k.Within s := by
  refine ⟨{ w with start := w.current, trail := ⟨w.current, w.current⟩ :: w.trail }, fun _ => rfl,
    h, rfl, rfl, fun s mem => ?_⟩
  rcases List.mem_cons.1 mem with rfl | old
  · exact .inr ⟨Nat.le_refl _, h.1⟩
  · exact .inl old

/-- A round at a statement that can be read. -/
lemma At.segment_reads {s : Stmt} (enough : 8 * ts.length + 3 ≤ fuel) (h : k.At w ts)
    (read : Reads (Parser.statement ts) s rest) :
    k.Ends w (Walk.segment k.tokens fuel) (some s) [] rest := by
  obtain ⟨w₁, begins, here, started, kept, trail₁⟩ := h.begin
  have follows := here.statement (fun _ => followed k _) enough
  rw [plain_eq_ok_iff.2 read] at follows
  obtain ⟨w₂, run, moves, stands, same⟩ := follows.of_ok
  have attempted : Walk.attempt (Walk.statement k.tokens fuel) w₁ = some (.ok (some s), w₂) :=
    (congrArg (Option.bind · _) run).trans rfl
  refine ⟨w₂, ?_, stands, by rw [same, kept, List.append_nil], fun s mem => ?_⟩
  · exact (begins fuel).trans ((bind_of_some attempted).trans rfl)
  · exact (moves.within (Nat.le_of_eq started) s mem).elim (trail₁ s) .inr

/-- A round at a statement that breaks off. -/
lemma At.segment_fails {u : List Token} {fault : Fault} (enough : 8 * (u ++ rest).length + 3 ≤ fuel)
    (h : k.At w (u ++ rest)) (fails : Parser.statement (u ++ rest) = fail fault rest) :
    k.Ends w (Walk.segment k.tokens fuel) none [fault.diagnostic (rest.headD k.stop)]
      (resume (u ++ rest) rest.length) := by
  obtain ⟨w₁, begins, here, started, kept, trail₁⟩ := h.begin
  have follows := here.statement (fun _ => followed k _) enough
  rw [fails] at follows
  obtain ⟨w₂, run, moves, stands, reported⟩ := Follows.of_fail follows here
  have attempted : Walk.attempt (Walk.statement k.tokens fuel) w₁ = some (.ok none, w₂) :=
    (congrArg (Option.bind · _) run).trans rfl
  have fewer : rest.length + 1 ≤ fuel := by
    rw [List.length_append] at enough
    omega
  obtain ⟨w₃, run', moves', stands', same⟩ :=
    (here.synchronize fewer stands (moves.start.trans started)).of_ok
  refine ⟨w₃, ?_, stands', by rw [same, reported, kept], fun s mem => ?_⟩
  · exact (begins fuel).trans ((bind_of_some attempted).trans ((bind_of_some run').trans rfl))
  · have behind : w₂.start ≤ w₂.current := by
      rw [moves.start, started]
      exact moves.forward
    rcases moves'.within behind s mem with old | within
    · exact (moves.within (Nat.le_of_eq started) s old).elim (trail₁ s) .inr
    · exact .inr within

/-- A round of the loop over statements gives a segment. -/
lemma At.segment (enough : 8 * (t :: ts).length + 3 ≤ fuel) (h : k.At w (t :: ts)) :
    ∃ segment rest, segments k.stop (t :: ts) = segment :: segments k.stop rest ∧
      rest.length < (t :: ts).length ∧
      k.Ends w (Walk.segment k.tokens fuel) segment.toOption
        (Reading.ofSegments [segment]).diagnostics rest := by
  rcases h.statement_cases with ⟨s, rest, read⟩ | ⟨u, rest, fault, whole, fails, -⟩
  · exact ⟨.ok s, rest, segments_of_reads read, read.shorter, h.segment_reads enough read⟩
  · rw [whole] at h fails enough ⊢
    have some : u ++ rest ≠ [] := whole ▸ List.cons_ne_nil _ _
    exact ⟨_, _, segments_of_fails k.stop some fails, resume_length_lt some _,
      h.segment_fails enough fails⟩

/-- A walk may end with a value where it stands. -/
lemma Ends.pure {a : α} (h : k.At w rest) : k.Ends w (Pure.pure a) a [] rest :=
  ⟨w, rfl, h, (List.append_nil _).symm, fun _ => .inl⟩

/-- Walks that end may come one behind the other, and so do their reports. -/
lemma Ends.bind {a : α} {b : β} {reported reported' : List Diagnostic} {rest' : List Token}
    (h : k.Ends w x a reported rest)
    (next : ∀ w', k.At w' rest → k.Ends w' (f a) b reported' rest') :
    k.Ends w (x >>= f) b (reported ++ reported') rest' := by
  obtain ⟨w', run, stands, said, trail⟩ := h
  obtain ⟨w'', run', stands', said', trail'⟩ := next w' stands
  refine ⟨w'', (bind_of_some run).trans run', stands', ?_, fun s mem => ?_⟩
  · rw [said', said, List.append_assoc]
  · exact (trail' s mem).elim (trail s) .inr

/-- The loop over statements gives all segments. -/
lemma At.program (enough : 8 * ts.length + 8 ≤ fuel) (h : k.At w ts) :
    k.Ends w (Walk.program k.tokens fuel)
      (Reading.ofSegments (segments k.stop ts)).program.statements
      (Reading.ofSegments (segments k.stop ts)).diagnostics [] := by
  induction fuel generalizing w ts with
  | zero => omega
  | succ fuel ih =>
    rw [Walk.program, Ends, bind_of_some h.isAtEnd, ← Ends]
    cases ts with
    | nil =>
      rw [segments_nil]
      exact .pure h
    | cons t ts =>
      have still : 8 * (t :: ts).length + 3 ≤ fuel := by omega
      obtain ⟨segment, rest, more, shorter, round⟩ := h.segment still
      have reading : ∀ l, Reading.ofSegments (segment :: l) =
          ⟨⟨segment.toOption.toList ++ (Reading.ofSegments l).program.statements⟩,
            (Reading.ofSegments [segment]).diagnostics ++ (Reading.ofSegments l).diagnostics⟩ := by
        cases segment <;> intro l <;> rfl
      rw [more, reading]
      refine round.bind fun w' stands => ?_
      have others := (ih (show 8 * rest.length + 8 ≤ fuel by grind) stands).bind
        (f := fun ss => Pure.pure (segment.toOption.toList ++ ss)) fun _ => .pure
      rwa [List.append_nil] at others

/-- The rounds of the loops proceed from wherever the walker stands on the track. -/
lemma progresses (enough : 8 * k.before.length + 8 ≤ fuel) (within : w.current ≤ k.before.length) :
    Walk.Progresses k.tokens fuel k.before.length w := by
  have h : k.At w (k.before.drop w.current) := ⟨within, rfl⟩
  have enough : 8 * (k.before.drop w.current).length + 3 ≤ fuel := by
    rw [List.length_drop]
    omega
  refine ⟨h.param_proceeds, h.argument_proceeds enough, h.operator_proceeds enough,
    h.statement_proceeds enough, fun lt => ?_⟩
  obtain ⟨t, ts, eq⟩ := List.exists_cons_of_ne_nil (List.drop_eq_nil_iff.not.2 (Nat.not_le.2 lt))
  rw [eq] at h enough
  obtain ⟨segment, rest, -, shorter, w', run, stands, -⟩ := h.segment enough
  exact ⟨_, w', run, h.lt_of_shorter stands shorter⟩

end Program

end Track

/-- Any tokens, with a marker behind them if there is none, are a track. -/
lemma Token.exists_track (ts : List Token) :
    ∃ k : Track, k.tokens = marked ts ∧ untilEof ts = (k.before, k.stop) := by
  by_cases none : ∀ t ∈ ts, t.kind ≠ .eof
  · have before : ts.takeWhile (·.kind ≠ .eof) = ts :=
      List.takeWhile_eq_self_iff.2 (by simpa using none)
    cases last : ts.getLast? with
    | none =>
      rw [List.getLast?_eq_none_iff.1 last]
      exact ⟨⟨[], .eof 0, [], by simp, rfl⟩, rfl, rfl⟩
    | some t =>
      have other : t.kind ≠ .eof := none t (List.mem_of_getLast? last)
      refine ⟨⟨ts, .eof t.span.stop, [], none, rfl⟩, ?_, ?_⟩
      · simp [marked, last, other, Track.tokens]
      · simp only [untilEof, before, List.drop_length, last, Option.map_some, Option.getD_some]
  · obtain ⟨w, marker, rest, rfl, noEof, isEof⟩ := exists_first_eof ts (by simpa using none)
    have ends : untilEof (w ++ marker :: rest) = (w, marker) := untilEof_append noEof isEof
    simp only [marked]
    split
    · split
      · exact ⟨⟨w, marker, rest, noEof, isEof⟩, rfl, ends⟩
      · rename_i t _ _
        exact ⟨⟨w, marker, rest ++ [.eof t.span.stop], noEof, isEof⟩, by simp [Track.tokens], ends⟩
    · rename_i none
      simp at none

/-- The place of the marker is as far on as there are tokens before it. -/
lemma Track.eofPlace_eq (k : Track) {ts : List Token} (tokens : k.tokens = Token.marked ts) :
    Token.eofPlace ts = k.before.length := by
  have before : k.before.findIdx (·.kind = .eof) = k.before.length :=
    List.findIdx_eq_length.2 (by simpa using k.noEof)
  rw [Token.eofPlace, ← tokens, Track.tokens, List.findIdx_append, before, if_neg (by simp)]
  simp [List.findIdx_cons, k.isEof]

/-- The tokens up to the marker are those before it, and the marker. -/
lemma Track.upToEof_eq (k : Track) {ts : List Token} (tokens : k.tokens = Token.marked ts) :
    Token.upToEof ts = k.before ++ [k.stop] := by
  rw [Token.upToEof, k.eofPlace_eq tokens, ← tokens, Track.tokens, List.take_length_add_append]
  rfl

/-- Every list of tokens is read to its end, whatever the tokens are, with any fuel from eight calls
per token on. On the way the position is at most that of the first marker of the end, and that of
the beginning of the statement at most the position, so no look at a token goes astray; each round
of a loop steps over a token or breaks off. The tokens behind the first marker do not matter. -/
theorem Walk.program_total (ts : List Token) :
    (∀ fuel ≥ 8 * (Token.eofPlace ts + 1),
      (∃ w, Walk.program (Token.marked ts) fuel .initial =
          some (.ok (Reading.ofTokens ts).program.statements, w) ∧
        w.diagnostics = (Reading.ofTokens ts).diagnostics ∧
        ∀ s ∈ w.trail, s.start ≤ s.current ∧ s.current ≤ Token.eofPlace ts) ∧
      ∀ w : Walker, w.current ≤ Token.eofPlace ts →
        Progresses (Token.marked ts) fuel (Token.eofPlace ts) w) ∧
    Reading.ofTokens (Token.upToEof ts) = Reading.ofTokens ts := by
  obtain ⟨k, tokens, ends⟩ := Token.exists_track ts
  have place : Token.eofPlace ts = k.before.length := k.eofPlace_eq tokens
  have upTo : Token.upToEof ts = k.before ++ [k.stop] := k.upToEof_eq tokens
  have read : Reading.ofTokens ts = .ofSegments (segments k.stop k.before) := by
    simp only [Reading.ofTokens, ends]
  rw [place, ← tokens, upTo, read]
  refine ⟨fun fuel enough => ⟨?_, fun w => k.progresses enough⟩,
    Reading.ofTokens_marked k.noEof k.isEof⟩
  have start : k.At .initial k.before := ⟨Nat.zero_le _, rfl⟩
  obtain ⟨w, run, -, said, trail⟩ := start.program enough
  refine ⟨w, run, said, fun s mem => ?_⟩
  rcases trail s mem with first | within
  · cases List.mem_singleton.1 first
    exact ⟨Nat.le_refl _, Nat.zero_le _⟩
  · exact within

end Monkey
