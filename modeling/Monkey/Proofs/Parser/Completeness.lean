import Monkey.Proofs.Parser.Readers

/-!
# What is derived is read

A reader takes from the front of a list of tokens what derives a tree, and gives the tree, as long
as what follows does not continue it. For an expression this is stated with what is read after it:
`Derives.reads` says that reading an expression that begins with the tokens goes on with its
operators, as if the tree had been read already.
-/

namespace Monkey.Grammar

open Monkey.Parser

/-- Further parameters are read up to the closing parenthesis. -/
lemma Parameters.reads_more {t closing : Token} {rest : List Token}
    (close : closing.kind = .rightParen) {w : List Token} {x : Identifier} {xs : List Identifier}
    (h : Parameters (t :: w) (x :: xs)) : Reads (moreParams (w ++ closing :: rest)) xs rest := by
  generalize eq : t :: w = w' at h
  generalize eq' : x :: xs = xs' at h
  induction h generalizing t w x xs with
  | none => cases eq
  | last kind =>
    cases eq
    cases eq'
    exact (reads_moreParams_close (next_cons.2 (by simp [close]))).2
      ⟨closing, rest, reads_expect.2 ⟨rfl, close⟩, rfl, rfl⟩
  | more kind isComma others ih =>
    cases eq
    cases eq'
    cases others with
    | last kind' =>
      exact (reads_moreParams_comma isComma).2 ⟨_, _, reads_name.2 ⟨_, rfl, kind', rfl⟩, _, _,
        ih rfl rfl, rfl, rfl⟩
    | more kind' _ _ =>
      exact (reads_moreParams_comma isComma).2 ⟨_, _, reads_name.2 ⟨_, rfl, kind', rfl⟩, _, _,
        ih rfl rfl, rfl, rfl⟩

/-- Parameters are read up to the closing parenthesis. -/
lemma Parameters.reads {w : List Token} {xs : List Identifier} {closing : Token}
    {rest : List Token} (h : Parameters w xs) (close : closing.kind = .rightParen) :
    Reads (params (w ++ closing :: rest)) xs rest := by
  cases h with
  | none => exact (reads_params_none close).2 ⟨rfl, rfl⟩
  | last kind =>
    refine (reads_params (next_cons.2 (by simp [kind]))).2
      ⟨_, _, reads_name.2 ⟨_, rfl, kind, rfl⟩, _, _, ?_, rfl, rfl⟩
    exact (Parameters.last kind).reads_more close
  | more kind isComma others =>
    refine (reads_params (next_cons.2 (by simp [kind]))).2
      ⟨_, _, reads_name.2 ⟨_, rfl, kind, rfl⟩, _, _, ?_, rfl, rfl⟩
    exact (Parameters.more kind isComma others).reads_more close

/-- Arguments are read like further arguments, behind a comma. -/
lemma reads_moreArguments_of_arguments {comma : Token} {ts rest : List Token}
    {args : List Expr × Span} (isComma : comma.kind = .comma) (notNone : Next (· ≠ .rightParen) ts)
    (read : Reads (arguments ts) args rest) : Reads (moreArguments (comma :: ts)) args rest :=
  (reads_moreArguments_comma isComma).2 ((reads_arguments notNone).1 read)

/-- Whatever goes on behind these tokens, in a context that takes in the level, goes on behind the
expression. -/
def Readable (p : Precedence) (w : List Token) (e : Expr) : Prop :=
  ∀ ⦃context rest whole r⦄, context ≠ .call → (within context).rank ≤ p.rank →
    Next (fun k => ¬ p < binding k) rest → (ClosesConsequence w e → Next (· ≠ .elseWord) rest) →
    Reads (operators context e rest) whole r → Reads (expression context (w ++ rest)) whole r

/-- An operand can be followed by anything. -/
lemma Readable.of_operand {p : Precedence} {w : List Token} {e : Expr}
    (h : ∀ rest, Next (fun k => ¬ p < binding k) rest →
      (ClosesConsequence w e → Next (· ≠ .elseWord) rest) → Reads (operand (w ++ rest)) e rest) :
    Readable p w e :=
  fun _ rest _ _ _ _ apart complete further =>
    reads_expression.2 ⟨e, rest, h rest apart complete, further⟩

/-- What is readable reads as a whole expression before a token that does not continue it. -/
lemma Readable.whole {w rest : List Token} {e : Expr} (h : Readable .lowest w e)
    (apart : Next Apart rest) (complete : ClosesConsequence w e → Next (· ≠ .elseWord) rest) :
    Reads (expression .lowest (w ++ rest)) e rest := by
  have stop : Next (fun k => ¬ Precedence.lowest < binding k) rest :=
    apart.mono fun _ => not_lowest_lt_iff.2
  exact h (by decide) (by decide) stop complete ((reads_operators_stop stop).2 ⟨rfl, rfl⟩)

/-- What is readable reads as a whole expression before a closing token. -/
lemma Readable.closed {w r : List Token} {t : Token} {e : Expr} (h : Readable .lowest w e)
    (kind : t.kind = .rightParen ∨ t.kind = .comma) :
    Reads (expression .lowest (w ++ t :: r)) e (t :: r) := by
  apply h.whole
  · rcases kind with kind | kind
    · rw [next_cons, kind]
      decide
    · rw [next_cons, kind]
      decide
  · intro _
    rcases kind with kind | kind
    · simp [kind]
    · simp [kind]

/-- These tokens read as the statement before tokens that do not continue it, with the semicolon
that may stand there. -/
def ReadableStatement (v : List Token) (s : Stmt) : Prop :=
  ∀ ⦃r s' rest⦄, Next Apart r → Next (· ≠ .elseWord) r → Ends s r s' rest →
    Reads (statement (v ++ r)) s' rest

/-- The kinds that may stand behind a statement without a semicolon. -/
def Follows (kind : TokenKind) : Prop := Apart kind ∧ kind ≠ .elseWord ∧ kind ≠ .semicolon

instance : DecidablePred Follows := fun _ => instDecidableAnd

/-- Statements follow a statement unless they continue it. -/
lemma DerivesStatements.follows {w : List Token} {statements : List Stmt}
    (h : DerivesStatements w statements) (apart : Next Apart w) : Next Follows w := by
  intro t first
  have opens := h.opens t first
  exact ⟨apart t first, opens.ne (by decide), opens.ne (by decide)⟩

/-- A readable statement is read with the semicolon behind it. -/
lemma ReadableStatement.ended {v r : List Token} {s : Stmt} {semicolon : Token}
    (h : ReadableStatement v s) (kind : semicolon.kind = .semicolon) :
    Reads (statement (v ++ semicolon :: r)) (s.endedBy semicolon.span) r := by
  refine h (next_cons.2 ?_) (next_cons.2 ?_) (.inl ⟨_, rfl, kind, rfl⟩)
  · rw [kind]
    decide
  · simp [kind]

/-- A readable statement is read up to what does not continue it. -/
lemma ReadableStatement.bare {v rest : List Token} {s : Stmt} (h : ReadableStatement v s)
    (follows : Next Follows rest) : Reads (statement (v ++ rest)) s rest := by
  refine h (follows.mono fun _ f => f.1) (follows.mono fun _ f => f.2.1) (.inr ⟨?_, rfl, rfl⟩)
  exact follows.mono fun _ f => f.2.2

mutual

/-- What is derived at a level is readable at it. -/
theorem Derives.readable {p : Precedence} {w : List Token} {e : Expr} :
    Derives p w e → Readable p w e
  | .tighter h => by
    intro context rest whole r inContext le apart complete further
    have le := Nat.le_trans le (rank_le_tighter p)
    refine h.readable inContext le (apart.mono fun k not below => not ?_) complete further
    exact Nat.lt_of_le_of_lt (rank_le_tighter p) below
  | @Derives.binary op _ _ w _ b left found right => by
    intro context rest whole r inContext le apart complete further
    have below : context < op.precedence := lt_of_within_le le
    -- The right operand is read in the context of the operator, up to the tokens behind it.
    have readRight : Reads (expression op.precedence (w ++ rest)) b rest := by
      refine right.readable ?_ ?_ (apart.mono fun k not below => not ?_) (fun closes => ?_)
        ((reads_operators_stop apart).2 ⟨rfl, rfl⟩)
      · cases op <;> decide
      · exact Nat.le_of_eq (congrArg Precedence.rank (within_precedence op))
      · exact Nat.lt_of_le_of_lt (rank_le_tighter op.precedence) below
      · refine complete (closesConsequence_binary.2 ?_)
        rw [List.append_cons, closesConsequence_append right.ne_nil]
        exact closes
    rw [List.append_assoc, List.cons_append]
    refine left.readable inContext le (next_cons.2 ?_) (fun _ => next_cons.2 ?_)
      ((reads_operators_binary found below).2 ⟨_, rest, readRight, further⟩)
    · rw [binding_of_found found]
      exact Nat.lt_irrefl _
    · rintro isElse
      rw [isElse] at found
      cases found
  | .unary found operand => .of_operand fun rest apart complete => by
    refine (reads_operand_unary found).2 ⟨_, rest, ?_, rfl, rfl⟩
    refine operand.readable (by decide) (by decide) apart (fun closes => ?_)
      ((reads_operators_stop apart).2 ⟨rfl, rfl⟩)
    refine complete ((closesConsequence_append (v := [_]) operand.ne_nil).2 ?_)
    exact closesConsequence_unary.2 closes
  | .call callee opening args closing => by
    intro context rest whole r inContext le _ _ further
    rw [List.append_assoc, List.cons_append, List.append_assoc, List.singleton_append]
    refine callee.readable inContext le (next_cons.2 (not_call_lt _)) (fun _ => ?_)
      ((reads_operators_call opening (lt_call inContext)).2 ⟨_, rest, args.reads closing, further⟩)
    simp [opening]
  | .identifier kind => .of_operand fun _ _ _ => (reads_operand_identifier kind).2 ⟨rfl, rfl⟩
  | .integer kind found => .of_operand fun _ _ _ =>
    (reads_operand_integer kind).2 ⟨_, found, rfl, rfl⟩
  | .string kind => .of_operand fun _ _ _ => (reads_operand_string kind).2 ⟨rfl, rfl⟩
  | .trueWord kind => .of_operand fun _ _ _ => (reads_operand_true kind).2 ⟨rfl, rfl⟩
  | .falseWord kind => .of_operand fun _ _ _ => (reads_operand_false kind).2 ⟨rfl, rfl⟩
  | .group opening inner closing => .of_operand fun rest _ _ => by
    rw [List.cons_append, List.append_assoc, List.singleton_append]
    exact (reads_operand_group opening).2 ⟨_, _, inner.readable.closed (.inl closing), _, _,
      reads_expect.2 ⟨rfl, closing⟩, rfl, rfl⟩
  | .conditional kind opening condition closing consequence => .of_operand fun rest _ complete => by
    have notElse : Next (· ≠ .elseWord) rest := by
      apply complete
      rw [List.append_cons, ← List.cons_append, ← List.cons_append]
      exact closesConsequence_conditional consequence
    rw [List.cons_append, List.cons_append, List.append_assoc, List.cons_append]
    exact (reads_operand_conditional kind).2 ⟨_, _, reads_expect.2 ⟨rfl, opening⟩, _, _,
      condition.readable.closed (.inl closing), _, _, reads_expect.2 ⟨rfl, closing⟩, _, _,
      consequence.reads, _, _, (reads_otherwise_none notElse).2 ⟨rfl, rfl⟩, rfl, rfl⟩
  | .alternative kind opening condition closing consequence isElse alternative =>
    .of_operand fun rest _ _ => by
    rw [List.cons_append, List.cons_append, List.append_assoc, List.cons_append, List.append_assoc,
      List.cons_append]
    exact (reads_operand_conditional kind).2 ⟨_, _, reads_expect.2 ⟨rfl, opening⟩, _, _,
      condition.readable.closed (.inl closing), _, _, reads_expect.2 ⟨rfl, closing⟩, _, _,
      consequence.reads, _, _, (reads_otherwise_else isElse).2 ⟨_, _, alternative.reads, rfl, rfl⟩,
      rfl, rfl⟩
  | .function kind opening params closing body => .of_operand fun rest _ _ => by
    rw [List.cons_append, List.cons_append, List.append_assoc, List.cons_append]
    exact (reads_operand_function kind).2 ⟨_, _, reads_expect.2 ⟨rfl, opening⟩, _, _,
      params.reads closing, _, _, body.reads, rfl, rfl⟩

/-- Arguments that derive are read up to the closing parenthesis. -/
theorem DerivesArguments.reads {w : List Token} {args : List Expr} {closing : Token}
    {r : List Token} (close : closing.kind = .rightParen) :
    DerivesArguments w args → Reads (arguments (w ++ closing :: r)) (args, closing.span) r
  | .none => (reads_arguments_none close).2 ⟨rfl, rfl⟩
  | .last first => by
    have readFirst := first.readable.closed (r := r) (.inl close)
    obtain ⟨t, w', rfl, begins⟩ := first.begins
    refine (reads_arguments (next_cons.2 (begins.ne (by decide)))).2 ⟨_, _, readFirst,
      ([], closing.span), r, ?_, rfl, rfl⟩
    exact (reads_moreArguments_close (next_cons.2 (by simp [close]))).2
      ⟨closing, r, reads_expect.2 ⟨rfl, close⟩, rfl, rfl⟩
  | .more (w := w) first isComma others => by
    have readFirst := first.readable.closed (r := w ++ closing :: r) (.inr isComma)
    have readOthers := others.reads (r := r) close
    obtain ⟨t, v', rfl, begins⟩ := first.begins
    obtain ⟨t', w', rfl, begins'⟩ := others.begins
    rw [List.append_assoc, List.cons_append]
    refine (reads_arguments (next_cons.2 (begins.ne (by decide)))).2 ⟨_, _, readFirst,
      (_, closing.span), r, ?_, rfl, rfl⟩
    exact reads_moreArguments_of_arguments isComma (next_cons.2 (begins'.ne (by decide))) readOthers

/-- A block that derives is read. -/
theorem DerivesBlock.reads {w : List Token} {b : Block} {rest : List Token} :
    DerivesBlock w b → Reads (block (w ++ rest)) b rest
  | .braces opening statements closing => by
    rw [List.cons_append, List.append_assoc, List.singleton_append]
    exact reads_block.2 ⟨_, _, reads_expect.2 ⟨rfl, opening⟩, _, _, statements.reads closing, rfl,
      rfl⟩

/-- A statement that derives is readable. -/
theorem DerivesStatement.readable {w : List Token} {s : Stmt} :
    DerivesStatement w s → ReadableStatement w s
  | .letStmt kind name equal value => fun r _ _ apart notElse ends =>
    (reads_statement_let kind).2 ⟨_, _, reads_name.2 ⟨_, rfl, name, rfl⟩, _, _,
      reads_expect.2 ⟨rfl, equal⟩, _, r, value.readable.whole apart fun _ => notElse, ends⟩
  | .returnStmt kind value => fun r _ _ apart notElse ends =>
    (reads_statement_return kind).2 ⟨_, r, value.readable.whole apart fun _ => notElse, ends⟩
  | .exprStmt value => by
    intro r s' rest apart notElse ends
    have readValue := value.readable.whole apart fun _ => notElse
    obtain ⟨t, w', rfl, begins⟩ := value.begins
    exact (reads_statement_expr (next_cons.2 ⟨begins.ne (by decide), begins.ne (by decide)⟩)).2
      ⟨_, r, readValue, ends⟩

/-- Statements that derive are read up to the closing brace. -/
theorem DerivesStatements.reads {w : List Token} {statements : List Stmt} {closing : Token}
    {r : List Token} (close : closing.kind = .rightBrace) :
    DerivesStatements w statements →
      Reads (body (w ++ closing :: r)) (statements, closing.span) r
  | .none => (reads_body_close close).2 ⟨rfl, rfl⟩
  | .ended (w := w) first kind others => by
    have readFirst := first.readable.ended (r := w ++ closing :: r) kind
    have readOthers := others.reads (r := r) close
    obtain ⟨t, v', rfl, opens⟩ := first.opens
    rw [List.append_assoc, List.cons_append]
    exact (reads_body (opens.ne (by decide))).2
      ⟨_, _, readFirst, (_, closing.span), r, readOthers, rfl, rfl⟩
  | .bare (w := w) first apart others => by
    have follows : Next Follows (w ++ closing :: r) :=
      (others.follows apart).before (by rw [close]; decide)
    have readFirst := first.readable.bare follows
    have readOthers := others.reads (r := r) close
    obtain ⟨t, v', rfl, opens⟩ := first.opens
    rw [List.append_assoc]
    exact (reads_body (opens.ne (by decide))).2
      ⟨_, _, readFirst, (_, closing.span), r, readOthers, rfl, rfl⟩

end

end Monkey.Grammar
