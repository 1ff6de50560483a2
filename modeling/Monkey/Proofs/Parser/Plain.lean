import Monkey.Proofs.Parser.Readers

/-!
# Readers by equations

What a reader gives, without the proof that it took something: its value with the tokens it left, or
where and why it broke off. Each reader satisfies an equation for each form of the tokens, by the
readers it calls. An equation tells about a reader that breaks off as much as about one that reads.
-/

namespace Monkey.Parser

open Grammar

variable {ts rest : List Token}

/-- What a reader gives, as a value with the tokens that follow. -/
def plain {R α : Type} [Outcome R α] (x : Except Failure R) : Except Failure (α × List Token) :=
  x.map fun r => (Outcome.value r, Outcome.rest r)

/-- What has not broken off goes on. -/
@[simp] lemma ok_bind {α β : Type} (a : α) (f : α → Except Failure β) :
    (Except.ok a >>= f) = f a := rfl

section Plain

variable {R R' α β : Type} [Outcome R α] [Outcome R' β] {x : Except Failure R}

/-- A reader after a reader. -/
lemma plain_bind {f : R → Except Failure R'} {g : α × List Token → Except Failure (β × List Token)}
    (next : ∀ r, plain (f r) = g (Outcome.value r, Outcome.rest r)) :
    plain (x >>= f) = plain x >>= g := by
  cases x with
  | error e => rfl
  | ok r => exact next r

/-- A reader that hands on what another one gives. -/
lemma plain_rewrap {R'' : Type} [Outcome R'' α] {f : R → Except Failure R''}
    (same : ∀ r, plain (f r) = .ok (Outcome.value r, Outcome.rest r)) :
    plain (x >>= f) = plain x := by
  cases x with
  | error e => rfl
  | ok r => exact same r

/-- The plain result of a reader is a value exactly if the reader reads it. -/
lemma plain_eq_ok_iff {value : α} : plain x = .ok (value, rest) ↔ Reads x value rest := by
  cases x with
  | error e => simp [plain, Reads, Except.map]
  | ok r => simp [plain, Except.map, reads_ok]

/-- The plain result of a reader keeps where and why it broke off. -/
lemma plain_eq_error_iff {failure : Failure} : plain x = .error failure ↔ x = .error failure := by
  cases x <;> simp [plain, Except.map]

end Plain

/-- A reader that has no proof at hand takes at least one token all the same. -/
lemma shorter_of_plain {α : Type} {x : Except Failure (Parsed α ts)} {value : α}
    (h : plain x = .ok (value, rest)) : rest.length < ts.length :=
  (plain_eq_ok_iff.1 h).shorter

section Equations

variable {t : Token}

/-- A token of the expected kind is taken. -/
lemma plain_expect_cons {kind : TokenKind} (same : t.kind = kind) :
    plain (expect kind (t :: ts)) = .ok (t, ts) := by
  rw [expect, if_pos same]
  rfl

/-- A token of another kind, or the end, is missed there. -/
lemma plain_expect_of_ne {kind : TokenKind} (other : Next (· ≠ kind) ts) :
    plain (expect kind ts) = fail (.missing kind) ts := by
  cases ts with
  | nil => rfl
  | cons t ts =>
    rw [expect, if_neg (next_cons.1 other)]
    rfl

/-- A name is an identifier without its kind. -/
lemma plain_name :
    plain (name ts) = plain (expect .identifier ts) >>= fun p =>
      .ok (⟨p.1.lexeme, p.1.span⟩, p.2) := by
  rw [name]
  exact plain_bind fun _ => rfl

/-- Behind a comma another parameter follows. -/
lemma plain_moreParams_comma (kind : t.kind = .comma) :
    plain (moreParams (t :: ts)) = plain (name ts) >>= fun p =>
      plain (moreParams p.2) >>= fun q => .ok (p.1 :: q.1, q.2) := by
  obtain ⟨_, lexeme, span⟩ := t
  cases kind
  rw [moreParams]
  exact plain_bind fun _ => plain_bind fun _ => rfl

/-- Without a comma the parameters must be closed. -/
lemma plain_moreParams_close (notComma : Next (· ≠ .comma) ts) :
    plain (moreParams ts) = plain (expect .rightParen ts) >>= fun p => .ok ([], p.2) := by
  rw [moreParams]
  · exact plain_bind fun _ => rfl
  · exact not_cons_of_next notComma

/-- A parenthesis that closes at once leaves no parameters. -/
lemma plain_params_none (kind : t.kind = .rightParen) :
    plain (params (t :: ts)) = .ok ([], ts) := by
  obtain ⟨_, lexeme, span⟩ := t
  cases kind
  rw [params]
  rfl

/-- Otherwise a parameter stands in front of the others. -/
lemma plain_params (notNone : Next (· ≠ .rightParen) ts) :
    plain (params ts) = plain (name ts) >>= fun p =>
      plain (moreParams p.2) >>= fun q => .ok (p.1 :: q.1, q.2) := by
  rw [params]
  · exact plain_bind fun _ => plain_bind fun _ => rfl
  · exact not_cons_of_next notNone

/-- An expression is an operand with the operators behind it. -/
lemma plain_expression {context : Precedence} :
    plain (expression context ts) = plain (operand ts) >>= fun p =>
      plain (operators context p.1 p.2) := by
  rw [expression]
  exact plain_bind fun _ => plain_rewrap fun _ => rfl

/-- At the end there is no operand. -/
lemma plain_operand_nil : plain (operand []) = fail .noExpression [] := by
  rw [operand]
  rfl

/-- An identifier is an operand. -/
lemma plain_operand_identifier (kind : t.kind = .identifier) :
    plain (operand (t :: ts)) = .ok (.identifier ⟨t.lexeme, t.span⟩, ts) := by
  obtain ⟨_, lexeme, span⟩ := t
  cases kind
  rw [operand]
  rfl

/-- A whole number is an operand if it fits into 64 bits; else it is at fault itself. -/
lemma plain_operand_integer (kind : t.kind = .int) :
    plain (operand (t :: ts)) =
      match Numeral.int64? t.lexeme with
      | some n => .ok (.literal (.integer n) t.span, ts)
      | none => fail .outOfRange (t :: ts) := by
  obtain ⟨_, lexeme, span⟩ := t
  cases kind
  rw [operand]
  dsimp only
  cases Numeral.int64? lexeme <;> rfl

/-- A text is an operand. -/
lemma plain_operand_string (kind : t.kind = .string) :
    plain (operand (t :: ts)) = .ok (.literal (.string t.lexeme) t.span, ts) := by
  obtain ⟨_, lexeme, span⟩ := t
  cases kind
  rw [operand]
  rfl

/-- The word `true` is an operand. -/
lemma plain_operand_true (kind : t.kind = .trueWord) :
    plain (operand (t :: ts)) = .ok (.literal (.boolean true) t.span, ts) := by
  obtain ⟨_, lexeme, span⟩ := t
  cases kind
  rw [operand]
  rfl

/-- The word `false` is an operand. -/
lemma plain_operand_false (kind : t.kind = .falseWord) :
    plain (operand (t :: ts)) = .ok (.literal (.boolean false) t.span, ts) := by
  obtain ⟨_, lexeme, span⟩ := t
  cases kind
  rw [operand]
  rfl

/-- Behind a prefix operator stands an expression that binds tighter than all infix operators. -/
lemma plain_operand_unary (op : PrefixOp) (found : PrefixOp.ofKind? t.kind = some op) :
    plain (operand (t :: ts)) = plain (expression .unary ts) >>= fun p =>
      .ok (.unary op p.1 (t.span.merge p.1.span), p.2) := by
  obtain ⟨kind, lexeme, span⟩ := t
  cases kind with
  | minus | bang =>
    cases found
    rw [operand]
    exact plain_bind fun _ => rfl
  | _ => cases found

/-- A group is the expression inside its parentheses. -/
lemma plain_operand_group (kind : t.kind = .leftParen) :
    plain (operand (t :: ts)) = plain (expression .lowest ts) >>= fun p =>
      plain (expect .rightParen p.2) >>= fun q => .ok (p.1, q.2) := by
  obtain ⟨_, lexeme, span⟩ := t
  cases kind
  rw [operand]
  exact plain_bind fun _ => plain_bind fun _ => rfl

/-- A conditional is a condition in parentheses, a block, and perhaps an alternative. -/
lemma plain_operand_conditional (kind : t.kind = .ifWord) :
    plain (operand (t :: ts)) = plain (expect .leftParen ts) >>= fun p₁ =>
      plain (expression .lowest p₁.2) >>= fun p₂ =>
      plain (expect .rightParen p₂.2) >>= fun p₃ =>
      plain (block p₃.2) >>= fun p₄ =>
      plain (otherwise p₄.2) >>= fun p₅ =>
        .ok (.conditional p₂.1 p₄.1 p₅.1 (t.span.merge (p₅.1.getD p₄.1).span), p₅.2) := by
  obtain ⟨_, lexeme, span⟩ := t
  cases kind
  rw [operand]
  exact plain_bind fun _ => plain_bind fun _ => plain_bind fun _ => plain_bind fun _ =>
    plain_bind fun _ => rfl

/-- A function is its parameters in parentheses and a block. -/
lemma plain_operand_function (kind : t.kind = .fnWord) :
    plain (operand (t :: ts)) = plain (expect .leftParen ts) >>= fun p₁ =>
      plain (params p₁.2) >>= fun p₂ =>
      plain (block p₂.2) >>= fun p₃ =>
        .ok (.function p₂.1 p₃.1 (t.span.merge p₃.1.span), p₃.2) := by
  obtain ⟨_, lexeme, span⟩ := t
  cases kind
  rw [operand]
  exact plain_bind fun _ => plain_bind fun _ => plain_bind fun _ => rfl

/-- A character that is no token is reported as one. -/
lemma plain_operand_illegal (kind : t.kind = .illegal) :
    plain (operand (t :: ts)) = fail .illegal (t :: ts) := by
  obtain ⟨_, lexeme, span⟩ := t
  cases kind
  rw [operand]
  rfl

/-- No other token begins an operand. -/
lemma plain_operand_other {kind : TokenKind} {lexeme : String} {span : Span}
    (none : ¬ Begins kind) (other : kind ≠ .illegal) :
    plain (operand (⟨kind, lexeme, span⟩ :: ts)) =
      fail .noExpression (⟨kind, lexeme, span⟩ :: ts) := by
  rw [operand]
  · rfl
  all_goals
    rintro rfl
    first | exact other rfl | exact none (by decide)

variable {context : Precedence} {left : Expr}

/-- Operators that do not bind tighter than the context are left for it. -/
lemma plain_operators_stop (stop : Next (fun k => ¬ context < binding k) ts) :
    plain (operators context left ts) = .ok (left, ts) :=
  plain_eq_ok_iff.2 ((reads_operators_stop stop).2 ⟨rfl, rfl⟩)

/-- An infix operator that binds tighter than the context takes what is on its right. -/
lemma plain_operators_binary {op : InfixOp} (found : InfixOp.ofKind? t.kind = some op)
    (below : context < op.precedence) :
    plain (operators context left (t :: ts)) = plain (expression op.precedence ts) >>= fun p =>
      plain (operators context (.binary op left p.1 (left.span.merge p.1.span)) p.2) := by
  obtain ⟨kind, lexeme, span⟩ := t
  rw [operators]
  split
  · rename_i op' found'
    cases found'.symm.trans found
    rw [if_pos below]
    exact plain_bind fun _ => plain_rewrap fun _ => rfl
  · rename_i none
    cases none.symm.trans found

/-- A parenthesis that binds tighter than the context makes a call. -/
lemma plain_operators_call (kind : t.kind = .leftParen) (below : context < .call) :
    plain (operators context left (t :: ts)) = plain (arguments ts) >>= fun p =>
      plain (operators context (.call left p.1.1 (left.span.merge p.1.2)) p.2) := by
  obtain ⟨_, lexeme, span⟩ := t
  cases kind
  rw [operators]
  split
  · rename_i found
    cases found
  · rw [if_pos ⟨rfl, below⟩]
    exact plain_bind fun _ => plain_rewrap fun _ => rfl

/-- A parenthesis that closes at once leaves no arguments. -/
lemma plain_arguments_none (kind : t.kind = .rightParen) :
    plain (arguments (t :: ts)) = .ok (([], t.span), ts) := by
  obtain ⟨_, lexeme, span⟩ := t
  cases kind
  rw [arguments]
  rfl

/-- Otherwise an argument stands in front of the others. -/
lemma plain_arguments (notNone : Next (· ≠ .rightParen) ts) :
    plain (arguments ts) = plain (expression .lowest ts) >>= fun p =>
      plain (moreArguments p.2) >>= fun q => .ok ((p.1 :: q.1.1, q.1.2), q.2) := by
  rw [arguments]
  · exact plain_bind fun _ => plain_bind fun _ => rfl
  · exact not_cons_of_next notNone

/-- Behind a comma another argument follows. -/
lemma plain_moreArguments_comma (kind : t.kind = .comma) :
    plain (moreArguments (t :: ts)) = plain (expression .lowest ts) >>= fun p =>
      plain (moreArguments p.2) >>= fun q => .ok ((p.1 :: q.1.1, q.1.2), q.2) := by
  obtain ⟨_, lexeme, span⟩ := t
  cases kind
  rw [moreArguments]
  exact plain_bind fun _ => plain_bind fun _ => rfl

/-- Without a comma the arguments must be closed. -/
lemma plain_moreArguments_close (notComma : Next (· ≠ .comma) ts) :
    plain (moreArguments ts) = plain (expect .rightParen ts) >>= fun p =>
      .ok (([], p.1.span), p.2) := by
  rw [moreArguments]
  · exact plain_bind fun _ => rfl
  · exact not_cons_of_next notComma

/-- A block is an opening brace with the statements up to the closing one. -/
lemma plain_block :
    plain (block ts) = plain (expect .leftBrace ts) >>= fun p =>
      plain (body p.2) >>= fun q => .ok (⟨q.1.1, p.1.span.merge q.1.2⟩, q.2) := by
  rw [block]
  exact plain_bind fun _ => plain_bind fun _ => rfl

/-- Behind `else` stands a block. -/
lemma plain_otherwise_else (kind : t.kind = .elseWord) :
    plain (otherwise (t :: ts)) = plain (block ts) >>= fun p => .ok (some p.1, p.2) := by
  obtain ⟨_, lexeme, span⟩ := t
  cases kind
  rw [otherwise]
  exact plain_bind fun _ => rfl

/-- Without `else` there is no alternative. -/
lemma plain_otherwise_none (notElse : Next (· ≠ .elseWord) ts) :
    plain (otherwise ts) = .ok (none, ts) := by
  rw [otherwise]
  · rfl
  · exact not_cons_of_next notElse

/-- At the end the closing brace of a block is missing. -/
lemma plain_body_nil : plain (body []) = fail (.missing .rightBrace) [] := by
  rw [body]
  rfl

/-- A closing brace ends the statements of a block. -/
lemma plain_body_close (kind : t.kind = .rightBrace) :
    plain (body (t :: ts)) = .ok (([], t.span), ts) := by
  obtain ⟨_, lexeme, span⟩ := t
  cases kind
  rw [body]
  rfl

/-- Otherwise a statement stands in front of the others. -/
lemma plain_body (notClose : t.kind ≠ .rightBrace) :
    plain (body (t :: ts)) = plain (statement (t :: ts)) >>= fun p =>
      plain (body p.2) >>= fun q => .ok ((p.1 :: q.1.1, q.1.2), q.2) := by
  rw [body]
  · exact plain_bind fun _ => plain_bind fun _ => rfl
  · rintro lexeme span rfl
    exact notClose rfl

/-- A statement with the semicolon that may stand behind it. -/
def ended (make : Span → Stmt) (span : Span) (ts : List Token) : Stmt × List Token :=
  (make (semicolon span ts).1, (semicolon span ts).2.1)

/-- A semicolon belongs to the statement that it ends. -/
lemma ended_semicolon {make : Span → Stmt} {span : Span} (kind : t.kind = .semicolon) :
    ended make span (t :: ts) = (make (span.merge t.span), ts) := by
  obtain ⟨_, lexeme, place⟩ := t
  cases kind
  rfl

/-- A statement may go without a semicolon. -/
lemma ended_bare {make : Span → Stmt} {span : Span} (other : Next (· ≠ .semicolon) ts) :
    ended make span ts = (make span, ts) := by
  unfold ended semicolon
  split
  · exact absurd rfl (next_cons.1 other)
  · rfl

/-- A binding is a name, an equals sign and an expression. -/
lemma plain_statement_let (kind : t.kind = .letWord) :
    plain (statement (t :: ts)) = plain (name ts) >>= fun p₁ =>
      plain (expect .assign p₁.2) >>= fun p₂ =>
      plain (expression .lowest p₂.2) >>= fun p₃ =>
        .ok (ended (.letStmt p₁.1 p₃.1) (t.span.merge p₃.1.span) p₃.2) := by
  obtain ⟨_, lexeme, span⟩ := t
  cases kind
  rw [statement]
  exact plain_bind fun _ => plain_bind fun _ => plain_bind fun _ => rfl

/-- A return is an expression behind the word. -/
lemma plain_statement_return (kind : t.kind = .returnWord) :
    plain (statement (t :: ts)) = plain (expression .lowest ts) >>= fun p =>
      .ok (ended (.returnStmt p.1) (t.span.merge p.1.span) p.2) := by
  obtain ⟨_, lexeme, span⟩ := t
  cases kind
  rw [statement]
  exact plain_bind fun _ => rfl

/-- Any other statement is an expression. -/
lemma plain_statement_expr (other : Next (fun k => k ≠ .letWord ∧ k ≠ .returnWord) ts) :
    plain (statement ts) = plain (expression .lowest ts) >>= fun p =>
      .ok (ended (.exprStmt p.1) p.1.span p.2) := by
  rw [statement]
  · exact plain_bind fun _ => rfl
  · exact not_cons_of_next (other.mono fun _ => And.left)
  · exact not_cons_of_next (other.mono fun _ => And.right)

end Equations

end Monkey.Parser
