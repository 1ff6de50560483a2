import Monkey.Proofs.Parser.Plain
import Monkey.Proofs.Parser.Walk

/-!
# Walking and reading

A walk along a position does what the readers do: from a place before the marker of the end it gives
the same value and stops where the rest of the tokens begins, or breaks off at the same token with
the same fault, and it never leaves the tokens up to the marker in between. Each walk needs fuel for
as many calls inside each other as there are tokens left, times eight, and a few more, by how many
calls there may be before the next token is stepped over. Main statement: `Track.followed`.
-/

open Monkey.Parser Monkey.Grammar

namespace Monkey

/-- What a fault says of the token that it is found at. -/
def Fault.Fits (found : Token) : Fault → Prop
  | .missing expected => found.kind ≠ expected
  | .noExpression => ¬ Begins found.kind ∧ found.kind ≠ .illegal
  | .illegal => found.kind = .illegal
  | .outOfRange => found.kind = .int ∧ Numeral.int64? found.lexeme = none

/-- Tokens to walk along: those before the first marker of the end, the marker, and more. -/
structure Track where
  before : List Token
  stop : Token
  behind : List Token
  noEof : ∀ t ∈ before, t.kind ≠ .eof
  isEof : stop.kind = .eof

namespace Track

/-- All tokens of the track. -/
def tokens (k : Track) : List Token := k.before ++ k.stop :: k.behind

variable (k : Track)

/-- The walker stands before the given tokens, with the marker behind them. -/
def At (w : Walker) (ts : List Token) : Prop :=
  w.current ≤ k.before.length ∧ k.before.drop w.current = ts

/-- One stands further on, in the same statement, and has not left the track in between. -/
structure Moves (w w' : Walker) : Prop where
  start : w'.start = w.start
  forward : w.current ≤ w'.current
  trail : ∀ s ∈ w'.trail, s ∈ w.trail ∨
    s.start = w.start ∧ w.current ≤ s.current ∧ s.current ≤ k.before.length

/-- From where the walker stands the walk does what a reader does. -/
inductive Follows {α : Type} (w : Walker) (x : Walk α) :
    Except Failure (α × List Token) → Prop where
  | reads {a rest w'} :
    x w = some (.ok a, w') →
    k.Moves w w' →
    k.At w' rest →
    w'.diagnostics = w.diagnostics →
    Follows w x (.ok (a, rest))
  | breaks {fault rest w'} :
    x w = some (.error .broken, w') →
    k.Moves w w' →
    k.At w' rest →
    w'.diagnostics = w.diagnostics ++ [fault.diagnostic (rest.headD k.stop)] →
    fault.Fits (rest.headD k.stop) →
    Follows w x (fail fault rest)

variable {k} {α β γ : Type} {w w' w'' : Walker} {x : Walk α} {f : α → Walk β} {t : Token}
  {ts rest : List Token} {kind : TokenKind} {fuel : Nat}

/-- Who stays has moved nowhere. -/
@[refl] lemma Moves.refl (w : Walker) : k.Moves w w := ⟨rfl, Nat.le_refl _, fun _ => .inl⟩

/-- Movements of one statement add up. -/
lemma Moves.trans (h : k.Moves w w') (h' : k.Moves w' w'') : k.Moves w w'' where
  start := h'.start.trans h.start
  forward := Nat.le_trans h.forward h'.forward
  trail s mem := by
    rcases h'.trail s mem with old | ⟨start, forward, within⟩
    · exact h.trail s old
    · exact .inr ⟨start.trans h.start, Nat.le_trans h.forward forward, within⟩

/-- What is run first gives a value. -/
lemma bind_of_some {a : α} (h : x w = some (.ok a, w')) : (x >>= f) w = f a w' := by
  show (x w).bind _ = _
  rw [h]
  rfl

/-- A walk that halts goes no further. -/
lemma bind_of_error {e : Halt} (h : x w = some (.error e, w')) :
    (x >>= f) w = some (.error e, w') := by
  show (x w).bind _ = _
  rw [h]
  rfl

namespace Follows

/-- A walk may give a value where it stands. -/
lemma pure {a : α} (h : k.At w rest) : k.Follows w (Pure.pure a) (.ok (a, rest)) :=
  .reads rfl (.refl w) h rfl

/-- A walk goes on after a walk as a reader after a reader. -/
lemma bind {r : Except Failure (α × List Token)}
    {g : α × List Token → Except Failure (β × List Token)} (h : k.Follows w x r)
    (next : ∀ a rest w', r = .ok (a, rest) → k.At w' rest → k.Follows w' (f a) (g (a, rest))) :
    k.Follows w (x >>= f) (r >>= g) := by
  cases h with
  | breaks run moves stands reported fits =>
    exact .breaks (bind_of_error run) moves stands reported fits
  | @reads a rest w' run moves stands same =>
    have further := next a rest w' rfl stands
    show k.Follows w (x >>= f) (g (a, rest))
    generalize g (a, rest) = r at further
    cases further with
    | reads run' moves' stands' same' =>
      exact .reads ((bind_of_some run).trans run') (moves.trans moves') stands' (same'.trans same)
    | breaks run' moves' stands' reported fits =>
      exact .breaks ((bind_of_some run).trans run') (moves.trans moves') stands'
        (same ▸ reported) fits

/-- A walk goes on after a walk that gives a value. -/
lemma andThen {a : α} {r : Except Failure (β × List Token)} (h : k.Follows w x (.ok (a, rest)))
    (next : ∀ w', k.At w' rest → k.Follows w' (f a) r) : k.Follows w (x >>= f) r :=
  h.bind (g := fun _ => r) fun _ _ w' eq stands => by
    cases eq
    exact next w' stands

/-- A walk goes on after a walk that makes something of what a reader gives. -/
lemma bindMade {c : γ → α} {r : Except Failure (γ × List Token)}
    {g : γ × List Token → Except Failure (β × List Token)}
    (h : k.Follows w x (r >>= fun p => .ok (c p.1, p.2)))
    (next : ∀ a rest w', r = .ok (a, rest) → k.At w' rest → k.Follows w' (f (c a)) (g (a, rest))) :
    k.Follows w (x >>= f) (r >>= g) := by
  cases r with
  | error e => exact h.bind (g := fun _ => .error e) fun _ _ _ eq => by cases eq
  | ok p => exact h.andThen fun w' => next p.1 p.2 w' rfl

/-- A look ahead moves nothing. -/
lemma look {a : α} {r : Except Failure (β × List Token)} (h : x w = some (.ok a, w))
    (next : k.Follows w (f a) r) : k.Follows w (x >>= f) r := by
  have same := bind_of_some (f := f) h
  cases next with
  | reads run moves stands same' => exact .reads (same.trans run) moves stands same'
  | breaks run moves stands reported fits =>
    exact .breaks (same.trans run) moves stands reported fits

end Follows

section Tokens

/-- Looking at a token gives the first one that is left. -/
lemma At.peek (h : k.At w ts) : Walk.peek k.tokens w = some (.ok (ts.headD k.stop), w) := by
  have found : k.tokens[w.current]? = some (ts.headD k.stop) := by
    rw [← List.head?_drop, tokens, List.drop_append_of_le_length h.1, h.2]
    cases ts <;> rfl
  refine (bind_of_some (x := get) rfl).trans ?_
  simp only [Walk.token, found]
  rfl

/-- The end is where nothing is left before the marker. -/
lemma At.isAtEnd (h : k.At w ts) : Walk.isAtEnd k.tokens w = some (.ok ts.isEmpty, w) := by
  refine (bind_of_some h.peek).trans ?_
  have : decide ((ts.headD k.stop).kind = .eof) = ts.isEmpty := by
    cases ts with
    | nil => simp [k.isEof]
    | cons t ts =>
      have mem : t ∈ k.before := List.mem_of_mem_drop (h.2 ▸ List.mem_cons_self)
      simp [k.noEof t mem]
  rw [this]
  rfl

/-- A walker before a token of the kind sees so. -/
lemma At.check_of_eq (h : k.At w (t :: ts)) (same : t.kind = kind) :
    Walk.check k.tokens kind w = some (.ok true, w) := by
  refine (bind_of_some h.isAtEnd).trans ((bind_of_some h.peek).trans ?_)
  simp [same]
  rfl

/-- A walker before another token, or at the end, sees so. -/
lemma At.check_of_ne (h : k.At w ts) (other : Next (· ≠ kind) ts) :
    Walk.check k.tokens kind w = some (.ok false, w) := by
  refine (bind_of_some h.isAtEnd).trans ?_
  cases ts with
  | nil => rfl
  | cons t ts =>
    refine (bind_of_some h.peek).trans ?_
    simp [next_cons.1 other]
    rfl

/-- A walker before a token is not at the marker yet. -/
lemma At.lt (h : k.At w (t :: ts)) : w.current < k.before.length := by
  have := congrArg List.length h.2
  simp only [List.length_drop, List.length_cons] at this
  omega

/-- Stepping over a token that is left. -/
lemma At.advance (h : k.At w (t :: ts)) : k.Follows w (Walk.advance k.tokens) (.ok (t, ts)) := by
  have lt := h.lt
  have found : k.tokens[w.current]? = some t := by
    rw [← List.head?_drop, tokens, List.drop_append_of_le_length h.1, h.2]
    rfl
  let w' : Walker := { w with
    current := w.current + 1
    trail := ⟨w.current + 1, w.start⟩ :: w.trail }
  have run : Walk.advance k.tokens w = some (.ok t, w') := by
    refine (bind_of_some h.isAtEnd).trans ?_
    show Walk.token k.tokens w.current w' = _
    simp only [Walk.token, found]
    rfl
  refine .reads run ⟨rfl, Nat.le_succ _, ?_⟩ ⟨lt, ?_⟩ rfl
  · intro s mem
    rcases List.mem_cons.1 mem with rfl | old
    · exact .inr ⟨rfl, Nat.le_succ _, lt⟩
    · exact .inl old
  · show k.before.drop (w.current + 1) = ts
    rw [← List.drop_drop, h.2]
    rfl

/-- Breaking off at the first token that is left. -/
lemma At.breakOff {fault : Fault} (h : k.At w ts) (fits : fault.Fits (ts.headD k.stop)) :
    k.Follows w (Walk.breakOff k.tokens fault : Walk α) (fail fault ts) :=
  .look h.peek (.breaks rfl ⟨rfl, Nat.le_refl _, fun _ => .inl⟩ h rfl fits)

/-- A walker steps over a token of the kind that it must find. -/
lemma At.consume_of_eq (h : k.At w (t :: ts)) (same : t.kind = kind) :
    k.Follows w (Walk.consume k.tokens kind) (.ok (t, ts)) :=
  .look (h.check_of_eq same) h.advance

/-- Stepping over a token of a kind, which is not that of the marker. -/
lemma At.consume (h : k.At w ts) (kind : TokenKind) (notEof : kind ≠ .eof) :
    k.Follows w (Walk.consume k.tokens kind) (plain (expect kind ts)) := by
  rcases next_or kind ts with ⟨t, ts, rfl, same⟩ | other
  · rw [plain_expect_cons same]
    exact h.consume_of_eq same
  · rw [plain_expect_of_ne other]
    refine .look (h.check_of_ne other) (h.breakOff ?_)
    cases ts with
    | nil => exact fun same => notEof (same.symm.trans k.isEof)
    | cons t ts => exact next_cons.1 other

/-- A walker steps over a token of the kind that it may find. -/
lemma At.accept (h : k.At w (t :: ts)) (same : t.kind = kind) :
    k.Follows w (Walk.accept k.tokens kind) (.ok (true, ts)) :=
  .look (h.check_of_eq same) (h.advance.andThen fun _ => .pure)

/-- A walker stays before another token. -/
lemma At.accept_of_ne (h : k.At w ts) (other : Next (· ≠ kind) ts) :
    Walk.accept k.tokens kind w = some (.ok false, w) :=
  bind_of_some (h.check_of_ne other)

/-- A walker takes a name as the reader does. -/
lemma At.name (h : k.At w ts) : k.Follows w (Walk.name k.tokens) (plain (Parser.name ts)) := by
  rw [plain_name]
  exact (h.consume .identifier (by decide)).bind fun _ _ _ _ stands => .pure stands

/-- A walker ends a statement as the reader does. -/
lemma At.ended (h : k.At w ts) (make : Span → Stmt) (span : Span) :
    k.Follows w (Walk.ended k.tokens make span) (.ok (Parser.ended make span ts)) := by
  rcases next_or .semicolon ts with ⟨t, ts, rfl, kind⟩ | other
  · rw [ended_semicolon kind]
    exact .look (h.check_of_eq kind) (h.advance.andThen fun _ => .pure)
  · rw [ended_bare other]
    exact .look (h.check_of_ne other) (.pure h)

end Tokens

/-- Fuel that is enough for something allows for one more call. -/
lemma exists_fuel {n : Nat} (enough : n + 1 ≤ fuel) : ∃ fuel', fuel = fuel' + 1 ∧ n ≤ fuel' :=
  ⟨fuel - 1, by omega, by omega⟩

section Params

/-- A loop over parameters and the closing parenthesis behind it. -/
lemma moreParams_follows (make : List Identifier → β) (enough : 8 * ts.length + 1 ≤ fuel)
    (h : k.At w ts) :
    k.Follows w
      (Walk.moreParams k.tokens fuel >>= fun xs => Walk.consume k.tokens .rightParen >>= fun _ =>
        Pure.pure (make xs))
      (plain (Parser.name ts) >>= fun p => plain (Parser.moreParams p.2) >>= fun q =>
        .ok (make (p.1 :: q.1), q.2)) := by
  induction fuel generalizing ts w make with
  | zero => omega
  | succ fuel ih =>
    rw [Walk.moreParams]
    simp only [Walk.param, bind_assoc, pure_bind]
    refine h.name.bind fun x rest w' read stands => ?_
    have shorter := shorter_of_plain read
    rcases next_or .comma rest with ⟨t, rest, rfl, comma⟩ | other
    · rw [plain_moreParams_comma comma]
      simp only [bind_assoc, ok_bind]
      refine (stands.accept comma).andThen fun w' stands => ?_
      simp only [if_true, bind_assoc, pure_bind]
      exact ih (fun xs => make (x :: xs)) (by grind) stands
    · rw [plain_moreParams_close other]
      simp only [bind_assoc, ok_bind]
      refine .look (stands.accept_of_ne other) ?_
      simp only [Bool.false_eq_true, if_false, pure_bind]
      exact (stands.consume .rightParen (by decide)).bind fun _ _ _ _ => .pure

/-- Parameters and the closing parenthesis. -/
lemma At.params (make : List Identifier → β) (enough : 8 * ts.length + 1 ≤ fuel) (h : k.At w ts) :
    k.Follows w
      (Walk.params k.tokens fuel >>= fun xs => Walk.consume k.tokens .rightParen >>= fun _ =>
        Pure.pure (make xs))
      (plain (Parser.params ts) >>= fun p => .ok (make p.1, p.2)) := by
  simp only [Walk.params, bind_assoc]
  rcases next_or .rightParen ts with ⟨t, ts, rfl, close⟩ | other
  · rw [plain_params_none close]
    refine .look (h.check_of_eq close) ?_
    simp only [if_true, pure_bind]
    exact (h.consume_of_eq close).andThen fun _ => .pure
  · rw [plain_params other]
    simp only [bind_assoc, ok_bind]
    exact .look (h.check_of_ne other) (moreParams_follows make enough h)

end Params

/-- Where the given tokens are left, the walks that call each other do what the readers do, if the
fuel is enough. Loops are followed up to the token that has to stand behind them. -/
structure Followed (k : Track) (ts : List Token) : Prop where
  expression : ∀ {fuel context w}, 8 * ts.length + 2 ≤ fuel → k.At w ts →
    k.Follows w (Walk.expression k.tokens fuel context) (plain (Parser.expression context ts))
  operators : ∀ {fuel context left w}, 8 * ts.length + 1 ≤ fuel → k.At w ts →
    k.Follows w (Walk.operators k.tokens fuel context left)
      (plain (Parser.operators context left ts))
  moreArguments : ∀ {β fuel w} (make : List Expr × Span → β), 8 * ts.length + 4 ≤ fuel →
    k.At w ts → k.Follows w
      (Walk.moreArguments k.tokens fuel >>= fun args =>
        Walk.consume k.tokens .rightParen >>= fun t => Pure.pure (make (args, t.span)))
      (plain (Parser.expression .lowest ts) >>= fun p => plain (Parser.moreArguments p.2) >>=
        fun q => .ok (make (p.1 :: q.1.1, q.1.2), q.2))
  block : ∀ {fuel w}, 8 * ts.length + 1 ≤ fuel → k.At w ts →
    k.Follows w (Walk.block k.tokens fuel) (plain (Parser.block ts))
  body : ∀ {β fuel w} (make : List Stmt × Span → β), 8 * ts.length + 4 ≤ fuel → k.At w ts →
    k.Follows w
      (Walk.body k.tokens fuel >>= fun ss => Walk.consume k.tokens .rightBrace >>= fun t =>
        Pure.pure (make (ss, t.span)))
      (plain (Parser.body ts) >>= fun q => .ok (make q.1, q.2))

section Followed

variable (ih : ∀ {rest : List Token}, rest.length < ts.length → k.Followed rest)

include ih

/-- A walker takes an alternative as the reader does if it takes blocks so. -/
lemma At.otherwise (enough : 8 * ts.length + 1 ≤ fuel) (h : k.At w ts) :
    k.Follows w (Walk.otherwise k.tokens fuel) (plain (Parser.otherwise ts)) := by
  obtain ⟨fuel, rfl, still⟩ := exists_fuel enough
  rw [Walk.otherwise]
  rcases next_or .elseWord ts with ⟨t, ts, rfl, kind⟩ | other
  · rw [plain_otherwise_else kind]
    refine (h.accept kind).andThen fun w' stands => ?_
    exact ((ih (by simp)).block (by grind) stands).bind fun _ _ _ _ => .pure
  · rw [plain_otherwise_none other]
    exact .look (h.accept_of_ne other) (.pure h)

omit ih in
/-- A conditional. -/
lemma At.conditional (ih : ∀ {rest : List Token}, rest.length < (t :: ts).length → k.Followed rest)
    (kind : t.kind = .ifWord) (enough : 8 * (t :: ts).length + 1 ≤ fuel)
    (h : k.At w (t :: ts)) :
    k.Follows w (Walk.operand k.tokens fuel) (plain (Parser.operand (t :: ts))) := by
  obtain ⟨fuel, rfl, still⟩ := exists_fuel enough
  rw [Walk.operand, plain_operand_conditional kind]
  refine .look h.peek ?_
  simp only [List.headD_cons, kind]
  refine (h.consume_of_eq kind).andThen fun _ stands => ?_
  refine (stands.consume .leftParen (by decide)).bind fun _ rest₁ _ read₁ stands => ?_
  have lt₁ := shorter_of_plain read₁
  refine ((ih (by grind)).expression (by grind) stands).bind
    fun condition rest₂ _ read₂ stands => ?_
  have lt₂ := shorter_of_plain read₂
  refine (stands.consume .rightParen (by decide)).bind fun _ rest₃ _ read₃ stands => ?_
  have lt₃ := shorter_of_plain read₃
  refine ((ih (by grind)).block (by grind) stands).bind
    fun consequence rest₄ _ read₄ stands => ?_
  have lt₄ := shorter_of_plain read₄
  exact (stands.otherwise (fun lt => ih (by grind)) (by grind)).bind fun _ _ _ _ => .pure

omit ih in
/-- A function. -/
lemma At.function (ih : ∀ {rest : List Token}, rest.length < (t :: ts).length → k.Followed rest)
    (kind : t.kind = .fnWord) (enough : 8 * (t :: ts).length + 1 ≤ fuel)
    (h : k.At w (t :: ts)) :
    k.Follows w (Walk.operand k.tokens fuel) (plain (Parser.operand (t :: ts))) := by
  obtain ⟨fuel, rfl, still⟩ := exists_fuel enough
  rw [Walk.operand, plain_operand_function kind]
  refine .look h.peek ?_
  simp only [List.headD_cons, kind]
  refine (h.consume_of_eq kind).andThen fun _ stands => ?_
  refine (stands.consume .leftParen (by decide)).bind fun _ rest₁ _ read₁ stands => ?_
  have lt₁ := shorter_of_plain read₁
  have fuelled : 8 * rest₁.length + 1 ≤ fuel := by grind
  have read := (stands.params id fuelled).bindMade
    (f := fun xs => Walk.block k.tokens fuel >>= fun body =>
      pure (Expr.function xs body (t.span.merge body.span)))
    (g := fun p => plain (Parser.block p.2) >>= fun q =>
      .ok (.function p.1 q.1 (t.span.merge q.1.span), q.2))
    fun xs rest₂ _ read₂ stands => by
      have lt₂ := shorter_of_plain read₂
      exact ((ih (by grind)).block (by grind) stands).bind fun _ _ _ _ => .pure
  simpa only [bind_assoc, pure_bind, id] using read

/-- A walker takes an operand as the reader does if it follows the readers behind the first token.
-/
lemma At.operand (enough : 8 * ts.length + 1 ≤ fuel) (h : k.At w ts) :
    k.Follows w (Walk.operand k.tokens fuel) (plain (Parser.operand ts)) := by
  -- Conditionals and functions call the other readers, and have lemmas of their own.
  by_cases conditional : ∃ t r, ts = t :: r ∧ t.kind = .ifWord
  · obtain ⟨t, r, rfl, kind⟩ := conditional
    exact h.conditional ih kind enough
  by_cases function : ∃ t r, ts = t :: r ∧ t.kind = .fnWord
  · obtain ⟨t, r, rfl, kind⟩ := function
    exact h.function ih kind enough
  obtain ⟨fuel, rfl, still⟩ := exists_fuel enough
  rw [Walk.operand]
  refine .look h.peek ?_
  cases ts with
  | nil =>
    rw [plain_operand_nil]
    simp only [List.headD_nil, k.isEof]
    exact h.breakOff (by simp [Fault.Fits, k.isEof, Begins])
  | cons t ts =>
    obtain ⟨kind, lexeme, span⟩ := t
    simp only [List.headD_cons]
    cases kind with
    | identifier =>
      rw [plain_operand_identifier rfl]
      exact h.advance.andThen fun _ => .pure
    | string =>
      rw [plain_operand_string rfl]
      exact h.advance.andThen fun _ => .pure
    | trueWord =>
      rw [plain_operand_true rfl]
      exact h.advance.andThen fun _ => .pure
    | falseWord =>
      rw [plain_operand_false rfl]
      exact h.advance.andThen fun _ => .pure
    | int =>
      rw [plain_operand_integer rfl]
      refine .look h.peek ?_
      simp only [List.headD_cons]
      cases range : Numeral.int64? lexeme with
      | none => exact h.breakOff ⟨rfl, range⟩
      | some n => exact h.advance.andThen fun _ => .pure
    | minus =>
      rw [plain_operand_unary .negate rfl]
      refine h.advance.andThen fun w' stands => ?_
      exact ((ih (by simp)).expression (by grind) stands).bind fun _ _ _ _ => .pure
    | bang =>
      rw [plain_operand_unary .not rfl]
      refine h.advance.andThen fun w' stands => ?_
      exact ((ih (by simp)).expression (by grind) stands).bind fun _ _ _ _ => .pure
    | leftParen =>
      rw [plain_operand_group rfl]
      refine (h.consume_of_eq rfl).andThen fun _ stands => ?_
      refine ((ih (by simp)).expression (by grind) stands).bind fun value rest _ _ stands => ?_
      exact (stands.consume .rightParen (by decide)).bind fun _ _ _ _ => .pure
    | ifWord => exact absurd ⟨_, _, rfl, rfl⟩ conditional
    | fnWord => exact absurd ⟨_, _, rfl, rfl⟩ function
    | illegal =>
      rw [plain_operand_illegal rfl]
      exact h.breakOff rfl
    | _ =>
      rw [plain_operand_other (by decide) (by decide)]
      exact h.breakOff (by simp [Fault.Fits, Begins])

omit ih in
/-- The arguments of a call and the closing parenthesis. -/
lemma At.arguments (make : List Expr × Span → β) (whole : k.Followed ts)
    (enough : 8 * ts.length + 5 ≤ fuel) (h : k.At w ts) :
    k.Follows w
      (Walk.arguments k.tokens fuel >>= fun args =>
        Walk.consume k.tokens .rightParen >>= fun t => Pure.pure (make (args, t.span)))
      (plain (Parser.arguments ts) >>= fun q => .ok (make q.1, q.2)) := by
  obtain ⟨fuel, rfl, still⟩ := exists_fuel enough
  rw [Walk.arguments]
  simp only [bind_assoc]
  rcases next_or .rightParen ts with ⟨t, ts, rfl, close⟩ | other
  · rw [plain_arguments_none close]
    refine .look (h.check_of_eq close) ?_
    simp only [if_true, pure_bind, ok_bind]
    exact (h.consume_of_eq close).andThen fun _ => .pure
  · rw [plain_arguments other]
    simp only [bind_assoc, ok_bind]
    exact .look (h.check_of_ne other) (whole.moreArguments make still h)

omit ih in
/-- A call, behind an expression. -/
lemma At.call {left : Expr} (ih : k.Followed ts) (kind : t.kind = .leftParen)
    (enough : 8 * ts.length + 6 ≤ fuel) (h : k.At w (t :: ts)) :
    k.Follows w (Walk.operator k.tokens fuel left) (plain (Parser.arguments ts) >>= fun p =>
      .ok (.call left p.1.1 (left.span.merge p.1.2), p.2)) := by
  obtain ⟨fuel, rfl, still⟩ := exists_fuel enough
  rw [Walk.operator]
  refine .look h.peek ?_
  simp only [List.headD_cons, kind]
  refine (h.consume_of_eq kind).andThen fun _ stands => ?_
  exact stands.arguments (fun p => Expr.call left p.1 (left.span.merge p.2)) ih still

omit ih in
/-- An operator with its right operand, behind an expression. -/
lemma At.binary {left : Expr} {op : InfixOp} (ih : k.Followed ts)
    (found : InfixOp.ofKind? t.kind = some op) (enough : 8 * ts.length + 6 ≤ fuel)
    (h : k.At w (t :: ts)) :
    k.Follows w (Walk.operator k.tokens fuel left)
      (plain (Parser.expression op.precedence ts) >>= fun p =>
        .ok (.binary op left p.1 (left.span.merge p.1.span), p.2)) := by
  obtain ⟨kind, lexeme, span⟩ := t
  obtain ⟨fuel, rfl, still⟩ := exists_fuel enough
  rw [Walk.operator]
  refine .look h.peek ?_
  cases kind with
  | plus | minus | star | slash | less | greater | equalEqual | bangEqual =>
    cases found
    refine h.advance.andThen fun _ stands => ?_
    exact (ih.expression (by omega) stands).bind fun _ _ _ _ => .pure
  | _ => cases found

omit ih in
/-- Both keep the same table of precedences. -/
lemma precedence_eq_binding (kind : TokenKind) : Walk.precedence kind = binding kind := by
  cases kind <;> rfl

/-- A walker takes operators as the reader does. -/
lemma At.operators {context : Precedence} {left : Expr} (enough : 8 * ts.length + 1 ≤ fuel)
    (h : k.At w ts) :
    k.Follows w (Walk.operators k.tokens fuel context left)
      (plain (Parser.operators context left ts)) := by
  obtain ⟨fuel, rfl, still⟩ := exists_fuel enough
  rw [Walk.operators]
  rcases next_or .semicolon ts with ⟨t, ts, rfl, kind⟩ | other
  · rw [plain_operators_stop (next_cons.2 (by rw [kind]; exact Nat.not_lt_zero _))]
    exact .look (h.check_of_eq kind) (.pure h)
  · refine .look (h.check_of_ne other) ?_
    simp only [Bool.false_eq_true, if_false]
    refine .look h.peek ?_
    rw [precedence_eq_binding]
    cases ts with
    -- The walk looks at the end marker here, which binds nothing.
    | nil =>
      have none : ¬ context < binding .eof := Nat.not_lt_zero _
      rw [plain_operators_stop next_nil, List.headD_nil, k.isEof, if_neg none]
      exact .pure h
    | cons t ts =>
      rw [List.headD_cons]
      by_cases below : context < binding t.kind
      · rw [if_pos below]
        rcases of_lt_binding below with ⟨op, found, binds⟩ | ⟨kind, binds⟩
        · rw [plain_operators_binary found (binds ▸ below)]
          exact (h.binary (ih (by simp)) found (by grind)).bindMade
            (c := fun right => .binary op left right (left.span.merge right.span))
            (g := fun p => plain (Parser.operators context _ p.2))
            fun _ _ _ read stands => by
              have lt := shorter_of_plain read
              exact (ih (Nat.lt_succ_of_lt lt)).operators (by grind) stands
        · rw [plain_operators_call kind (binds ▸ below)]
          exact (h.call (ih (by simp)) kind (by grind)).bindMade
            (c := fun args => .call left args.1 (left.span.merge args.2))
            (g := fun p => plain (Parser.operators context _ p.2))
            fun _ _ _ read stands => by
              have lt := shorter_of_plain read
              exact (ih (Nat.lt_succ_of_lt lt)).operators (by grind) stands
      · rw [if_neg below, plain_operators_stop (next_cons.2 below)]
        exact .pure h

/-- A walker takes an expression as the reader does if it takes operands and operators so. -/
lemma At.expression {context : Precedence} (enough : 8 * ts.length + 2 ≤ fuel) (h : k.At w ts) :
    k.Follows w (Walk.expression k.tokens fuel context)
      (plain (Parser.expression context ts)) := by
  obtain ⟨fuel, rfl, still⟩ := exists_fuel enough
  rw [Walk.expression, plain_expression]
  refine (h.operand ih still).bind fun first rest _ read stands => ?_
  have lt := shorter_of_plain read
  exact (ih lt).operators (by omega) stands

/-- A walker takes an argument as the reader does, and looks for a comma behind it. -/
lemma At.argument (enough : 8 * ts.length + 3 ≤ fuel) (f : Expr × Bool → Walk β)
    {g : Expr × List Token → Except Failure (β × List Token)}
    (next : ∀ e rest w', plain (Parser.expression .lowest ts) = .ok (e, rest) → k.At w' rest →
      k.Follows w' (Walk.accept k.tokens .comma >>= fun more => f (e, more)) (g (e, rest)))
    (h : k.At w ts) :
    k.Follows w (Walk.argument k.tokens fuel >>= f)
      (plain (Parser.expression .lowest ts) >>= g) := by
  obtain ⟨fuel, rfl, still⟩ := exists_fuel enough
  rw [Walk.argument]
  simp only [bind_assoc, pure_bind]
  exact (h.expression ih still).bind next

/-- A walker takes further arguments as the reader does. -/
lemma At.moreArguments (make : List Expr × Span → β) (enough : 8 * ts.length + 4 ≤ fuel)
    (h : k.At w ts) :
    k.Follows w
      (Walk.moreArguments k.tokens fuel >>= fun args =>
        Walk.consume k.tokens .rightParen >>= fun t => Pure.pure (make (args, t.span)))
      (plain (Parser.expression .lowest ts) >>= fun p => plain (Parser.moreArguments p.2) >>=
        fun q => .ok (make (p.1 :: q.1.1, q.1.2), q.2)) := by
  obtain ⟨fuel, rfl, still⟩ := exists_fuel enough
  rw [Walk.moreArguments]
  simp only [bind_assoc]
  refine h.argument ih still _ fun e rest w' read stands => ?_
  have shorter := shorter_of_plain read
  rcases next_or .comma rest with ⟨t, rest, rfl, comma⟩ | other
  · rw [plain_moreArguments_comma comma]
    simp only [bind_assoc, ok_bind]
    refine (stands.accept comma).andThen fun w' stands => ?_
    simp only [if_true, bind_assoc, pure_bind]
    exact (ih (by grind)).moreArguments (fun p => make (e :: p.1, p.2)) (by grind) stands
  · rw [plain_moreArguments_close other]
    simp only [bind_assoc, ok_bind]
    refine .look (stands.accept_of_ne other) ?_
    simp only [Bool.false_eq_true, if_false, pure_bind]
    exact (stands.consume .rightParen (by decide)).bind fun _ _ _ _ => .pure

/-- A walker takes a block as the reader does. -/
lemma At.block (enough : 8 * ts.length + 1 ≤ fuel) (h : k.At w ts) :
    k.Follows w (Walk.block k.tokens fuel) (plain (Parser.block ts)) := by
  obtain ⟨fuel, rfl, still⟩ := exists_fuel enough
  rw [Walk.block, plain_block]
  refine (h.consume .leftBrace (by decide)).bind fun start rest _ read stands => ?_
  have lt := shorter_of_plain read
  exact (ih lt).body (fun p => (⟨p.1, start.span.merge p.2⟩ : Block)) (by omega) stands

/-- A walker takes a statement as the reader does. -/
lemma At.statement (enough : 8 * ts.length + 3 ≤ fuel) (h : k.At w ts) :
    k.Follows w (Walk.statement k.tokens fuel) (plain (Parser.statement ts)) := by
  obtain ⟨fuel, rfl, still⟩ := exists_fuel enough
  rw [Walk.statement]
  refine .look h.peek ?_
  cases ts with
  | nil =>
    rw [plain_statement_expr next_nil]
    simp only [List.headD_nil, k.isEof]
    exact (h.expression ih still).bind fun _ _ _ _ stands => stands.ended _ _
  | cons t ts =>
    obtain ⟨kind, lexeme, span⟩ := t
    cases kind with
    | letWord =>
      rw [plain_statement_let rfl]
      refine (h.consume_of_eq rfl).andThen fun _ stands => ?_
      refine stands.name.bind fun x rest₁ _ read₁ stands => ?_
      have lt₁ := shorter_of_plain read₁
      refine (stands.consume .assign (by decide)).bind fun _ rest₂ _ read₂ stands => ?_
      have lt₂ := shorter_of_plain read₂
      exact ((ih (by grind)).expression (by grind) stands).bind
        fun _ _ _ _ stands => stands.ended _ _
    | returnWord =>
      rw [plain_statement_return rfl]
      refine (h.consume_of_eq rfl).andThen fun _ stands => ?_
      exact ((ih (by simp)).expression (by grind) stands).bind
        fun _ _ _ _ stands => stands.ended _ _
    | _ =>
      rw [plain_statement_expr (next_cons.2 (by simp))]
      exact (h.expression ih still).bind fun _ _ _ _ stands => stands.ended _ _

/-- A walker takes the body of a block as the reader does. -/
lemma At.body (make : List Stmt × Span → β) (enough : 8 * ts.length + 4 ≤ fuel) (h : k.At w ts) :
    k.Follows w
      (Walk.body k.tokens fuel >>= fun ss => Walk.consume k.tokens .rightBrace >>= fun t =>
        Pure.pure (make (ss, t.span)))
      (plain (Parser.body ts) >>= fun q => .ok (make q.1, q.2)) := by
  obtain ⟨fuel, rfl, still⟩ := exists_fuel enough
  rw [Walk.body]
  simp only [bind_assoc]
  rcases next_or .rightBrace ts with ⟨t, ts, rfl, close⟩ | other
  · rw [plain_body_close close]
    refine .look (h.check_of_eq close) ?_
    simp only [if_true, pure_bind, ok_bind]
    exact (h.consume_of_eq close).andThen fun _ => .pure
  · refine .look (h.check_of_ne other) ?_
    simp only [Bool.false_eq_true, if_false, bind_assoc]
    refine .look h.isAtEnd ?_
    cases ts with
    -- The text is over: the walk and the reader both miss the brace.
    | nil =>
      rw [plain_body_nil]
      simp only [List.isEmpty_nil, if_true, pure_bind]
      show k.Follows w _ (plain (expect .rightBrace []) >>= fun p =>
        .ok (make ([], p.1.span), p.2))
      exact (h.consume .rightBrace (by decide)).bind fun _ _ _ _ => .pure
    | cons t ts =>
      rw [plain_body (next_cons.1 other)]
      simp only [List.isEmpty_cons, Bool.false_eq_true, if_false, bind_assoc, pure_bind, ok_bind]
      refine (h.statement ih still).bind fun s rest _ read stands => ?_
      have lt := shorter_of_plain read
      exact (ih lt).body (fun p => make (s :: p.1, p.2)) (by grind) stands

end Followed

/-- By induction on the number of tokens, a walker follows all readers. -/
lemma followed (k : Track) (ts : List Token) : k.Followed ts := by
  induction n : ts.length using Nat.strongRecOn generalizing ts with
  | ind n ih =>
    subst n
    have ih {rest : List Token} (lt : rest.length < ts.length) : k.Followed rest := ih _ lt rest rfl
    exact ⟨At.expression ih, At.operators ih, At.moreArguments ih, At.block ih, At.body ih⟩

end Track

end Monkey
