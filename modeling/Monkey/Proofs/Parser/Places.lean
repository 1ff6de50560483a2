import Monkey.Proofs.Parser.Acceptance
import Monkey.Proofs.Parser.Plain
import Monkey.Proofs.Syntax.Shape
import Mathlib.Logic.Basic

/-!
# Reading pays no heed to places

Tokens that differ in nothing but their places are read alike: the readers give trees of the same
shape, or break off at the same token with the same fault, and what is skipped behind a fault is the
same. Spans go into trees and diagnostics, and no reader looks at one. Main statement:
`Reading.ofTokens_shape`.
-/

namespace Monkey

/-- The diagnostic at no place. -/
def Diagnostic.shape (d : Diagnostic) : Diagnostic :=
  { d with span := .nowhere, column := 1, length := 0 }

/-- What was read, standing nowhere. -/
def Reading.shape (r : Reading) : Reading :=
  ⟨r.program.shape, r.diagnostics.map Diagnostic.shape⟩

namespace Parser

open Grammar

variable {α β γ δ : Type} {ts : List Token} {t : Token} {context : Precedence}

/-- What a reader gives, with its value and the tokens behind it stripped of their places. -/
def placeless (f : α → β) (x : Except Failure (α × List Token)) : Except Failure (β × List Token) :=
  x.map fun p => (f p.1, p.2.map Token.shape)

/-- A value and the tokens behind it lose their places. -/
@[simp] lemma placeless_ok (f : α → β) (a : α) (ts : List Token) :
    placeless f (.ok (a, ts)) = .ok (f a, ts.map Token.shape) := rfl

/-- So do the tokens that a reader broke off at. -/
@[simp] lemma placeless_fail (f : α → β) (fault : Fault) (ts : List Token) :
    placeless f (fail fault ts) = fail fault (ts.map Token.shape) := by
  simp [placeless, fail, Except.map]

/-- A reader after a reader. -/
lemma placeless_bind {f : α → β} {f' : γ → δ} {x : Except Failure (α × List Token)}
    {g : α × List Token → Except Failure (γ × List Token)}
    {g' : β × List Token → Except Failure (δ × List Token)}
    (next : ∀ a rest, x = .ok (a, rest) →
      g' (f a, rest.map Token.shape) = placeless f' (g (a, rest))) :
    placeless f x >>= g' = placeless f' (x >>= g) := by
  cases x with
  | error e => rfl
  | ok p => exact next p.1 p.2 rfl

/-- What comes next is a matter of kinds, so places do not count. -/
lemma next_shape {P : TokenKind → Prop} : Next P (ts.map Token.shape) ↔ Next P ts := by
  cases ts with
  | nil => simp
  | cons t ts => simp [next_cons]

/-- Where the next token is not of a kind there is a next token. -/
lemma exists_cons_of_not_next {P : TokenKind → Prop} (h : ¬ Next P ts) :
    ∃ t ts', ts = t :: ts' ∧ ¬ P t.kind := by
  cases ts with
  | nil => exact absurd next_nil h
  | cons t ts => exact ⟨t, ts, rfl, fun holds => h (next_cons.2 holds)⟩

section Readers

/-- Expecting a kind pays no heed to places. -/
lemma expect_shape (kind : TokenKind) (ts : List Token) :
    plain (expect kind (ts.map Token.shape)) = placeless Token.shape (plain (expect kind ts)) := by
  rcases next_or kind ts with ⟨t, ts, rfl, same⟩ | other
  · rw [List.map_cons, plain_expect_cons same, plain_expect_cons (t := t.shape) same, placeless_ok]
  · rw [plain_expect_of_ne other, plain_expect_of_ne (next_shape.2 other), placeless_fail]

/-- Reading a name pays no heed to places. -/
lemma name_shape (ts : List Token) :
    plain (name (ts.map Token.shape)) = placeless Identifier.shape (plain (name ts)) := by
  rw [plain_name, plain_name, expect_shape]
  exact placeless_bind fun _ _ _ => rfl

/-- Reading further parameters pays no heed to places. -/
lemma moreParams_shape (ts : List Token) :
    plain (moreParams (ts.map Token.shape)) =
      placeless (List.map Identifier.shape) (plain (moreParams ts)) := by
  induction n : ts.length using Nat.strongRecOn generalizing ts with
  | ind n ih =>
    subst n
    rcases next_or .comma ts with ⟨t, ts, rfl, comma⟩ | other
    · rw [List.map_cons, plain_moreParams_comma (t := t.shape) comma,
        plain_moreParams_comma comma, name_shape]
      refine placeless_bind fun x rest read => ?_
      rw [ih _ (Nat.lt_succ_of_lt (shorter_of_plain read)) _ rfl]
      exact placeless_bind fun _ _ _ => rfl
    · rw [plain_moreParams_close other, plain_moreParams_close (next_shape.2 other), expect_shape]
      exact placeless_bind fun _ _ _ => rfl

/-- Reading parameters pays no heed to places. -/
lemma params_shape (ts : List Token) :
    plain (params (ts.map Token.shape)) =
      placeless (List.map Identifier.shape) (plain (params ts)) := by
  rcases next_or .rightParen ts with ⟨t, ts, rfl, close⟩ | other
  · rw [List.map_cons, plain_params_none close, plain_params_none (t := t.shape) close]
    rfl
  · rw [plain_params other, plain_params (next_shape.2 other), name_shape]
    refine placeless_bind fun x rest _ => ?_
    rw [moreParams_shape]
    exact placeless_bind fun _ _ _ => rfl

/-- The semicolon of a statement counts for nothing but its span. -/
lemma ended_shape (make : Span → Stmt) {make' : Span → Stmt}
    (same : ∀ span, (make span).shape = make' .nowhere)
    (span : Span) (ts : List Token) :
    ended make' .nowhere (ts.map Token.shape) =
      ((ended make span ts).1.shape, (ended make span ts).2.map Token.shape) := by
  rcases next_or .semicolon ts with ⟨t, ts, rfl, kind⟩ | other
  · rw [List.map_cons, ended_semicolon kind, ended_semicolon (t := t.shape) kind, same]
    simp
  · rw [ended_bare other, ended_bare (next_shape.2 other), same]

/-- The readers that call each other, on tokens without places. -/
structure Placeless (ts : List Token) : Prop where
  expression : ∀ context, plain (expression context (ts.map Token.shape)) =
    placeless Expr.shape (plain (expression context ts))
  operators : ∀ context left, plain (operators context left.shape (ts.map Token.shape)) =
    placeless Expr.shape (plain (operators context left ts))
  moreArguments : plain (moreArguments (ts.map Token.shape)) =
    placeless (fun p => (Expr.shapes p.1, .nowhere)) (plain (moreArguments ts))
  block : plain (block (ts.map Token.shape)) = placeless Block.shape (plain (block ts))
  body : plain (body (ts.map Token.shape)) =
    placeless (fun p => (Stmt.shapes p.1, .nowhere)) (plain (body ts))

section Mutual

variable (ih : ∀ {rest : List Token}, rest.length < ts.length → Placeless rest)

include ih

/-- Reading an alternative pays no heed to places if reading a block does not. -/
lemma otherwise_shape :
    plain (otherwise (ts.map Token.shape)) =
      placeless (Option.map Block.shape) (plain (otherwise ts)) := by
  rcases next_or .elseWord ts with ⟨t, ts, rfl, kind⟩ | other
  · rw [List.map_cons, plain_otherwise_else kind, plain_otherwise_else (t := t.shape) kind,
      (ih (by simp)).block]
    exact placeless_bind fun _ _ _ => rfl
  · rw [plain_otherwise_none other, plain_otherwise_none (next_shape.2 other)]
    rfl

omit ih in
/-- Reading a conditional pays no heed to places if reading what is in it does not. -/
lemma conditional_shape
    (ih : ∀ {rest : List Token}, rest.length < (t :: ts).length → Placeless rest)
    (kind : t.kind = .ifWord) :
    plain (operand ((t :: ts).map Token.shape)) =
      placeless Expr.shape (plain (operand (t :: ts))) := by
  rw [List.map_cons, plain_operand_conditional kind, plain_operand_conditional (t := t.shape) kind,
    expect_shape]
  refine placeless_bind fun _ rest₁ read₁ => ?_
  have lt₁ := shorter_of_plain read₁
  rw [(ih (by grind)).expression]
  refine placeless_bind fun condition rest₂ read₂ => ?_
  have lt₂ := shorter_of_plain read₂
  rw [expect_shape]
  refine placeless_bind fun _ rest₃ read₃ => ?_
  have lt₃ := shorter_of_plain read₃
  rw [(ih (by grind)).block]
  refine placeless_bind fun consequence rest₄ read₄ => ?_
  have lt₄ := shorter_of_plain read₄
  rw [otherwise_shape fun lt => ih (by grind)]
  refine placeless_bind fun alternative rest₅ _ => ?_
  cases alternative <;> simp [Expr.shape]

omit ih in
/-- Reading a function pays no heed to places if reading its block does not. -/
lemma function_shape
    (ih : ∀ {rest : List Token}, rest.length < (t :: ts).length → Placeless rest)
    (kind : t.kind = .fnWord) :
    plain (operand ((t :: ts).map Token.shape)) =
      placeless Expr.shape (plain (operand (t :: ts))) := by
  rw [List.map_cons, plain_operand_function kind, plain_operand_function (t := t.shape) kind,
    expect_shape]
  refine placeless_bind fun _ rest₁ read₁ => ?_
  have lt₁ := shorter_of_plain read₁
  rw [params_shape]
  refine placeless_bind fun params rest₂ read₂ => ?_
  have lt₂ := shorter_of_plain read₂
  rw [(ih (by grind)).block]
  exact placeless_bind fun _ _ _ => by simp [Expr.shape]

/-- Reading an operand pays no heed to places if reading shorter tokens does not. -/
lemma operand_shape :
    plain (operand (ts.map Token.shape)) = placeless Expr.shape (plain (operand ts)) := by
  cases ts with
  | nil =>
    rw [List.map_nil, plain_operand_nil]
    rfl
  | cons t ts =>
    obtain ⟨kind, lexeme, span⟩ := t
    have stripped : Token.shape ⟨kind, lexeme, span⟩ = ⟨kind, lexeme, .nowhere⟩ := rfl
    rw [List.map_cons, stripped]
    cases kind with
    | identifier =>
      rw [plain_operand_identifier rfl, plain_operand_identifier rfl]
      rfl
    | string =>
      rw [plain_operand_string rfl, plain_operand_string rfl]
      rfl
    | trueWord =>
      rw [plain_operand_true rfl, plain_operand_true rfl]
      rfl
    | falseWord =>
      rw [plain_operand_false rfl, plain_operand_false rfl]
      rfl
    -- A number that is too large fails, and the diagnostic is the same without its place.
    | int =>
      rw [plain_operand_integer rfl, plain_operand_integer rfl]
      cases Numeral.int64? lexeme with
      | none => simp [Token.shape]
      | some n => rfl
    | minus =>
      rw [plain_operand_unary .negate rfl, plain_operand_unary .negate rfl,
        (ih (by simp)).expression]
      exact placeless_bind fun _ _ _ => by simp [Expr.shape]
    | bang =>
      rw [plain_operand_unary .not rfl, plain_operand_unary .not rfl,
        (ih (by simp)).expression]
      exact placeless_bind fun _ _ _ => by simp [Expr.shape]
    | leftParen =>
      rw [plain_operand_group rfl, plain_operand_group rfl, (ih (by simp)).expression]
      refine placeless_bind fun _ _ _ => ?_
      rw [expect_shape]
      exact placeless_bind fun _ _ _ => rfl
    | ifWord => exact conditional_shape ih rfl
    | fnWord => exact function_shape ih rfl
    | illegal =>
      rw [plain_operand_illegal rfl, plain_operand_illegal rfl, placeless_fail]
      rfl
    | _ =>
      rw [plain_operand_other (by decide) (by decide), plain_operand_other (by decide) (by decide),
        placeless_fail]
      rfl

/-- Reading arguments pays no heed to places if reading what they begin with does not. -/
lemma arguments_shape (whole : Placeless ts) :
    plain (arguments (ts.map Token.shape)) =
      placeless (fun p => (Expr.shapes p.1, .nowhere)) (plain (arguments ts)) := by
  rcases next_or .rightParen ts with ⟨t, ts, rfl, close⟩ | other
  · rw [List.map_cons, plain_arguments_none close, plain_arguments_none (t := t.shape) close]
    rfl
  · rw [plain_arguments other, plain_arguments (next_shape.2 other), whole.expression]
    refine placeless_bind fun e rest read => ?_
    rw [(ih (shorter_of_plain read)).moreArguments]
    exact placeless_bind fun _ _ _ => rfl

/-- Reading operators pays no heed to places if reading shorter tokens does not. -/
lemma operators_shape (left : Expr) :
    plain (operators context left.shape (ts.map Token.shape)) =
      placeless Expr.shape (plain (operators context left ts)) := by
  by_cases stop : Next (fun k => ¬ context < binding k) ts
  · rw [plain_operators_stop stop, plain_operators_stop (next_shape.2 stop), placeless_ok]
  · obtain ⟨t, ts, rfl, goesOn⟩ := exists_cons_of_not_next stop
    have below := not_not.1 goesOn
    rw [List.map_cons]
    rcases of_lt_binding below with ⟨op, found, binds⟩ | ⟨kind, binds⟩
    · rw [plain_operators_binary found (binds ▸ below),
        plain_operators_binary (t := t.shape) found (binds ▸ below), (ih (by simp)).expression]
      refine placeless_bind fun right rest read => ?_
      rw [← (ih (Nat.lt_succ_of_lt (shorter_of_plain read))).operators]
      simp [Expr.shape]
    · rw [plain_operators_call kind (binds ▸ below),
        plain_operators_call (t := t.shape) kind (binds ▸ below),
        arguments_shape (fun lt => ih (Nat.lt_succ_of_lt lt)) (ih (by simp))]
      refine placeless_bind fun args rest read => ?_
      rw [← (ih (Nat.lt_succ_of_lt (shorter_of_plain read))).operators]
      simp [Expr.shape]

/-- Reading an expression pays no heed to places if reading its operand does not. -/
lemma expression_shape :
    plain (expression context (ts.map Token.shape)) =
      placeless Expr.shape (plain (expression context ts)) := by
  rw [plain_expression, plain_expression, operand_shape ih]
  exact placeless_bind fun first rest read => (ih (shorter_of_plain read)).operators context first

/-- Reading further arguments pays no heed to places if reading shorter tokens does not. -/
lemma moreArguments_shape :
    plain (moreArguments (ts.map Token.shape)) =
      placeless (fun p => (Expr.shapes p.1, .nowhere)) (plain (moreArguments ts)) := by
  rcases next_or .comma ts with ⟨t, ts, rfl, comma⟩ | other
  · rw [List.map_cons, plain_moreArguments_comma comma,
      plain_moreArguments_comma (t := t.shape) comma, (ih (by simp)).expression]
    refine placeless_bind fun e rest read => ?_
    rw [(ih (Nat.lt_succ_of_lt (shorter_of_plain read))).moreArguments]
    exact placeless_bind fun _ _ _ => rfl
  · rw [plain_moreArguments_close other, plain_moreArguments_close (next_shape.2 other),
      expect_shape]
    exact placeless_bind fun _ _ _ => rfl

/-- Reading a block pays no heed to places if reading shorter tokens does not. -/
lemma block_shape :
    plain (block (ts.map Token.shape)) = placeless Block.shape (plain (block ts)) := by
  rw [plain_block, plain_block, expect_shape]
  refine placeless_bind fun start rest read => ?_
  rw [(ih (shorter_of_plain read)).body]
  exact placeless_bind fun _ _ _ => by simp [Block.shape]

/-- Reading a statement pays no heed to places if reading its expression does not. -/
lemma statement_shape :
    plain (statement (ts.map Token.shape)) = placeless Stmt.shape (plain (statement ts)) := by
  by_cases other : Next (fun k => k ≠ .letWord ∧ k ≠ .returnWord) ts
  · rw [plain_statement_expr other, plain_statement_expr (next_shape.2 other), expression_shape ih]
    refine placeless_bind fun value rest _ => ?_
    rw [Expr.shape_span, ended_shape (.exprStmt value) fun _ => rfl]
    rfl
  · obtain ⟨t, ts, rfl, word⟩ := exists_cons_of_not_next other
    rw [List.map_cons]
    rcases or_iff_not_and_not.2 word with kind | kind
    · rw [plain_statement_let kind, plain_statement_let (t := t.shape) kind, name_shape]
      refine placeless_bind fun x rest₁ read₁ => ?_
      have lt₁ := shorter_of_plain read₁
      rw [expect_shape]
      refine placeless_bind fun _ rest₂ read₂ => ?_
      have lt₂ := shorter_of_plain read₂
      rw [(ih (by grind)).expression]
      refine placeless_bind fun value rest₃ _ => ?_
      rw [Expr.shape_span, Token.shape_span, Span.merge_self,
        ended_shape (.letStmt x value) fun _ => rfl]
      rfl
    · rw [plain_statement_return kind, plain_statement_return (t := t.shape) kind,
        (ih (by simp)).expression]
      refine placeless_bind fun value rest _ => ?_
      rw [Expr.shape_span, Token.shape_span, Span.merge_self,
        ended_shape (.returnStmt value) fun _ => rfl]
      rfl

/-- Reading the body of a block pays no heed to places if reading shorter tokens does not. -/
lemma body_shape :
    plain (body (ts.map Token.shape)) =
      placeless (fun p => (Stmt.shapes p.1, .nowhere)) (plain (body ts)) := by
  cases ts with
  | nil =>
    rw [List.map_nil, plain_body_nil]
    rfl
  | cons t ts =>
    by_cases close : t.kind = .rightBrace
    · rw [List.map_cons, plain_body_close close, plain_body_close (t := t.shape) close]
      rfl
    · rw [plain_body close, List.map_cons, plain_body (t := t.shape) close, ← List.map_cons,
        statement_shape ih]
      refine placeless_bind fun s rest read => ?_
      rw [(ih (shorter_of_plain read)).body]
      exact placeless_bind fun _ _ _ => rfl

end Mutual

/-- By induction on the number of tokens, no reader pays heed to places. -/
lemma placeless_readers (ts : List Token) : Placeless ts := by
  induction n : ts.length using Nat.strongRecOn generalizing ts with
  | ind n ih =>
    subst n
    have ih {rest : List Token} (lt : rest.length < ts.length) : Placeless rest := ih _ lt rest rfl
    exact ⟨fun _ => expression_shape ih, fun _ => operators_shape ih, moreArguments_shape ih,
      block_shape ih, body_shape ih⟩

end Readers

section Segments

/-- The depth in braces is counted by kinds. -/
lemma braceDepth_shape (depth : Nat) (t : Token) :
    braceDepth depth t.shape = braceDepth depth t := rfl

/-- What is skipped is told by kinds. -/
lemma skip_shape (depth : Nat) (last : Token) (ts : List Token) :
    skip depth last.shape (ts.map Token.shape) = (skip depth last ts).map Token.shape := by
  induction ts generalizing depth last with
  | nil => rfl
  | cons t ts ih =>
    simp only [List.map_cons, skip, Token.shape_kind, braceDepth_shape, ih]
    split
    · rfl
    · split <;> rfl

/-- Where reading goes on behind a fault is told by kinds. -/
lemma resume_shape (ts : List Token) (left : Nat) :
    resume (ts.map Token.shape) left = (resume ts left).map Token.shape := by
  have depth : (ts.map Token.shape).take (ts.length - left) =
      (ts.take (ts.length - left)).map Token.shape := List.map_take.symm
  have behind : (ts.map Token.shape).drop (ts.length - left) =
      (ts.drop (ts.length - left)).map Token.shape := List.map_drop.symm
  simp only [resume, List.length_map, depth, behind, List.foldl_map, braceDepth_shape]
  cases ts.drop (ts.length - left) with
  | nil => rfl
  | cons t rest => exact skip_shape _ t rest

/-- A statement, or a diagnostic in its place, standing nowhere. -/
def segmentShape : Except Diagnostic Stmt → Except Diagnostic Stmt
  | .ok s => .ok s.shape
  | .error d => .error d.shape

/-- What a diagnostic says beside its place is told by the kind and the text of the token. -/
lemma diagnostic_shape (fault : Fault) (found : Token) :
    fault.diagnostic found.shape = (fault.diagnostic found).shape := by
  cases fault <;> rfl

/-- A statement that breaks off is a segment with its diagnostic, in front of the segments further
on. -/
lemma segments_of_error {stop : Token} {fault : Fault} {left : Nat}
    (run : statement (t :: ts) = .error ⟨fault, left⟩) :
    segments stop (t :: ts) =
      .error (fault.diagnostic (((t :: ts).drop ((t :: ts).length - left)).headD stop)) ::
        segments stop (resume (t :: ts) left) := by
  rw [segments, run]

/-- Tokens without places fall into the same segments. -/
lemma segments_shape (stop : Token) (ts : List Token) :
    segments stop.shape (ts.map Token.shape) = (segments stop ts).map segmentShape := by
  induction n : ts.length using Nat.strongRecOn generalizing ts with
  | ind n ih =>
    subst n
    cases ts with
    | nil => simp [segments]
    | cons t ts =>
      have same : plain (statement ((t :: ts).map Token.shape)) =
          placeless Stmt.shape (plain (statement (t :: ts))) :=
        statement_shape fun _ => placeless_readers _
      cases read : plain (statement (t :: ts)) with
      | ok p =>
        obtain ⟨s, rest⟩ := p
        rw [read, placeless_ok] at same
        rw [segments_of_reads (plain_eq_ok_iff.1 same), segments_of_reads (plain_eq_ok_iff.1 read),
          ih _ (shorter_of_plain read) _ rfl]
        rfl
      | error failure =>
        obtain ⟨fault, left⟩ := failure
        rw [read] at same
        have others := ih _ (resume_length_lt (List.cons_ne_nil t ts) left) _ rfl
        have found : (((t :: ts).map Token.shape).drop (((t :: ts).map Token.shape).length - left)
            ).headD stop.shape = (((t :: ts).drop ((t :: ts).length - left)).headD stop).shape := by
          rw [List.length_map, ← List.map_drop]
          cases (t :: ts).drop ((t :: ts).length - left) <;> rfl
        rw [segments_of_error (plain_eq_error_iff.1 read), List.map_cons (f := segmentShape),
          ← others, ← resume_shape, segmentShape, ← diagnostic_shape, ← found]
        exact segments_of_error (plain_eq_error_iff.1 same)

end Segments

end Parser

/-- The first marker of the end is found by kinds. -/
lemma Token.untilEof_shape (ts : List Token) :
    untilEof (ts.map shape) = ((untilEof ts).1.map shape, (untilEof ts).2.shape) := by
  have before : (ts.map shape).takeWhile (·.kind ≠ .eof) =
      (ts.takeWhile (·.kind ≠ .eof)).map shape := by
    rw [List.takeWhile_map]
    rfl
  simp only [untilEof, before, List.length_map, ← List.map_drop]
  cases ts.drop (ts.takeWhile (·.kind ≠ .eof)).length with
  | cons marker rest => rfl
  | nil =>
    simp only [List.map_nil, List.getLast?_map]
    cases ts.getLast? <;> rfl

namespace Reading

/-- What is read from segments loses its places with them. -/
lemma ofSegments_shape (segments : List (Except Diagnostic Stmt)) :
    ofSegments (segments.map Parser.segmentShape) = (ofSegments segments).shape := by
  induction segments with
  | nil => rfl
  | cons segment segments ih =>
    simp only [ofSegments, shape, Program.shape, Stmt.shapes_eq_map, mk.injEq, Program.mk.injEq]
      at ih ⊢
    cases segment <;> simp [Parser.segmentShape, ih]

/-- Where tokens stand does not matter to what is read from them: without their places the same
program is read, with the same diagnostics, standing nowhere. -/
theorem ofTokens_shape (ts : List Token) : ofTokens (ts.map Token.shape) = (ofTokens ts).shape := by
  simp only [ofTokens, Token.untilEof_shape, Parser.segments_shape, ofSegments_shape]

end Reading

end Monkey
