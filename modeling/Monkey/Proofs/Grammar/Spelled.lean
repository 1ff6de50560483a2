import Monkey.Proofs.Grammar.Stratified
import Monkey.Proofs.Syntax.Rereading

/-!
# What spelled trees derive

A tree spelled as tokens derives the tree that it is read as, which is the tree itself unless some
of its statements run into each other. Tokens with the same shapes then derive a tree of the same
shape, wherever they stand. An expression that begins with a parenthesis does so with the ones of an
operation, so behind another expression the operation derives the arguments of a call; this carries
the statements that run into each other. Main statements: `Derives.placed` and
`Program.derives_tokens`.
-/

namespace Monkey

open Grammar

namespace Grammar

/-- Tokens that are, but for their places, some tokens before a token and some behind it. -/
lemma map_shape_eq_insert {v w r : List Token} {t : Token}
    (h : w.map Token.shape = v ++ t :: r) : ∃ v' t' r', w = v' ++ t' :: r' ∧
      v'.map Token.shape = v ∧ t'.shape = t ∧ r'.map Token.shape = r := by
  obtain ⟨v', w', rfl, eq, h⟩ := List.map_eq_append_iff.1 h
  obtain ⟨t', r', rfl, eq', h⟩ := List.map_eq_cons_iff.1 h
  exact ⟨v', t', r', rfl, eq, eq', h⟩

/-- What comes next is a matter of kinds, so places do not count. -/
lemma next_map_shape {P : TokenKind → Prop} {w : List Token} :
    Next P (w.map Token.shape) ↔ Next P w := by
  cases w with
  | nil => simp
  | cons t w => simp

/-- The shape of a statement with its semicolon. -/
lemma shape_endedBy (s : Stmt) (stop : Span) :
    (s.endedBy stop).shape = s.shape.endedBy .nowhere := by
  cases s <;> rfl

/-- Tokens of the same shapes are as many names in their own places. -/
lemma Parameters.placed {v : List Token} {xs : List Identifier} (h : Parameters v xs) :
    ∀ {w : List Token}, w.map Token.shape = v →
      ∃ xs', Parameters w xs' ∧ xs'.map Identifier.shape = xs := by
  induction h with
  | none =>
    intro w eq
    cases List.map_eq_nil_iff.1 eq
    exact ⟨[], .none, rfl⟩
  | last kind =>
    intro w eq
    obtain ⟨t, w, rfl, rfl, rest⟩ := List.map_eq_cons_iff.1 eq
    cases List.map_eq_nil_iff.1 rest
    exact ⟨_, .last kind, rfl⟩
  | more kind isComma others ih =>
    intro w eq
    obtain ⟨t, w, rfl, rfl, rest⟩ := List.map_eq_cons_iff.1 eq
    obtain ⟨comma, w, rfl, rfl, rest'⟩ := List.map_eq_cons_iff.1 rest
    obtain ⟨xs, h, same⟩ := ih rest'
    cases xs with
    | nil => cases same
    | cons x xs => exact ⟨_, .more kind isComma h, by simp [same, Identifier.shape]⟩

mutual

/-- Tokens derive a tree of the same shape wherever they stand. -/
theorem Derives.placed {p : Precedence} {v : List Token} {e : Expr} : Derives p v e →
    ∀ {w : List Token}, w.map Token.shape = v → ∃ e', Derives p w e' ∧ e'.shape = e
  | .tighter h, _, eq => by
    obtain ⟨e', h', same⟩ := h.placed eq
    exact ⟨e', .tighter h', same⟩
  | .binary left found right, _, eq => by
    obtain ⟨v, t, w, rfl, eqLeft, rfl, eqRight⟩ := map_shape_eq_insert eq
    obtain ⟨a, ha, rfl⟩ := left.placed eqLeft
    obtain ⟨b, hb, rfl⟩ := right.placed eqRight
    exact ⟨_, .binary ha found hb, by simp [Expr.shape]⟩
  | .unary found operand, _, eq => by
    obtain ⟨t, w, rfl, rfl, rest⟩ := List.map_eq_cons_iff.1 eq
    obtain ⟨a, ha, rfl⟩ := operand.placed rest
    exact ⟨_, .unary found ha, by simp [Expr.shape]⟩
  | .call callee opening args closing, _, eq => by
    obtain ⟨v, t, w, rfl, eqCallee, rfl, rest⟩ := map_shape_eq_insert eq
    obtain ⟨w, t', r, rfl, eqArgs, rfl, rest'⟩ := map_shape_eq_insert rest
    cases List.map_eq_nil_iff.1 rest'
    obtain ⟨a, ha, rfl⟩ := callee.placed eqCallee
    obtain ⟨es, hes, rfl⟩ := args.placed eqArgs
    exact ⟨_, .call ha opening hes closing, by simp [Expr.shape]⟩
  | .identifier kind, _, eq => by
    obtain ⟨t, rfl, rfl⟩ := List.map_eq_singleton_iff.1 eq
    exact ⟨_, .identifier kind, rfl⟩
  | .integer kind found, _, eq => by
    obtain ⟨t, rfl, rfl⟩ := List.map_eq_singleton_iff.1 eq
    exact ⟨_, .integer kind found, rfl⟩
  | .string kind, _, eq => by
    obtain ⟨t, rfl, rfl⟩ := List.map_eq_singleton_iff.1 eq
    exact ⟨_, .string kind, rfl⟩
  | .trueWord kind, _, eq => by
    obtain ⟨t, rfl, rfl⟩ := List.map_eq_singleton_iff.1 eq
    exact ⟨_, .trueWord kind, rfl⟩
  | .falseWord kind, _, eq => by
    obtain ⟨t, rfl, rfl⟩ := List.map_eq_singleton_iff.1 eq
    exact ⟨_, .falseWord kind, rfl⟩
  | .group opening inner closing, _, eq => by
    obtain ⟨t, w, rfl, rfl, rest⟩ := List.map_eq_cons_iff.1 eq
    obtain ⟨w, t', r, rfl, eqInner, rfl, rest'⟩ := map_shape_eq_insert rest
    cases List.map_eq_nil_iff.1 rest'
    obtain ⟨a, ha, same⟩ := inner.placed eqInner
    exact ⟨a, .group opening ha closing, same⟩
  | .conditional kind opening condition closing consequence, _, eq => by
    obtain ⟨t, w, rfl, rfl, rest⟩ := List.map_eq_cons_iff.1 eq
    obtain ⟨t', w, rfl, rfl, rest'⟩ := List.map_eq_cons_iff.1 rest
    obtain ⟨v, t'', w, rfl, eqCondition, rfl, rest''⟩ := map_shape_eq_insert rest'
    obtain ⟨a, ha, rfl⟩ := condition.placed eqCondition
    obtain ⟨b, hb, rfl⟩ := consequence.placed rest''
    exact ⟨_, .conditional kind opening ha closing hb, by simp [Expr.shape]⟩
  | .alternative kind opening condition closing consequence isElse alternative, _, eq => by
    obtain ⟨t, w, rfl, rfl, rest⟩ := List.map_eq_cons_iff.1 eq
    obtain ⟨t', w, rfl, rfl, rest'⟩ := List.map_eq_cons_iff.1 rest
    obtain ⟨v, t'', w, rfl, eqCondition, rfl, rest''⟩ := map_shape_eq_insert rest'
    obtain ⟨w, otherwise, w', rfl, eqConsequence, rfl, eqAlternative⟩ := map_shape_eq_insert rest''
    obtain ⟨a, ha, rfl⟩ := condition.placed eqCondition
    obtain ⟨b, hb, rfl⟩ := consequence.placed eqConsequence
    obtain ⟨b', hb', rfl⟩ := alternative.placed eqAlternative
    exact ⟨_, .alternative kind opening ha closing hb isElse hb', by simp [Expr.shape]⟩
  | .function kind opening params closing body, _, eq => by
    obtain ⟨t, w, rfl, rfl, rest⟩ := List.map_eq_cons_iff.1 eq
    obtain ⟨t', w, rfl, rfl, rest'⟩ := List.map_eq_cons_iff.1 rest
    obtain ⟨v, t'', w, rfl, eqParams, rfl, rest''⟩ := map_shape_eq_insert rest'
    obtain ⟨xs, hxs, rfl⟩ := params.placed eqParams
    obtain ⟨b, hb, rfl⟩ := body.placed rest''
    exact ⟨_, .function kind opening hxs closing hb, by simp [Expr.shape]⟩

/-- Arguments derive from tokens of the same shapes. -/
theorem DerivesArguments.placed {v : List Token} {es : List Expr} : DerivesArguments v es →
    ∀ {w : List Token}, w.map Token.shape = v →
      ∃ es', DerivesArguments w es' ∧ Expr.shapes es' = es
  | .none, _, eq => by
    cases List.map_eq_nil_iff.1 eq
    exact ⟨[], .none, rfl⟩
  | .last first, _, eq => by
    obtain ⟨a, ha, rfl⟩ := first.placed eq
    exact ⟨_, .last ha, rfl⟩
  | .more first isComma others, _, eq => by
    obtain ⟨v, comma, w, rfl, eqFirst, rfl, eqOthers⟩ := map_shape_eq_insert eq
    obtain ⟨a, ha, rfl⟩ := first.placed eqFirst
    obtain ⟨es, hes, same⟩ := others.placed eqOthers
    cases es with
    | nil => cases same
    | cons e es => exact ⟨_, .more ha isComma hes, congrArg (a.shape :: ·) same⟩

/-- Blocks derive from tokens of the same shapes. -/
theorem DerivesBlock.placed {v : List Token} {b : Block} : DerivesBlock v b →
    ∀ {w : List Token}, w.map Token.shape = v → ∃ b', DerivesBlock w b' ∧ b'.shape = b
  | .braces opening statements closing, _, eq => by
    obtain ⟨t, w, rfl, rfl, rest⟩ := List.map_eq_cons_iff.1 eq
    obtain ⟨w, t', r, rfl, eqStatements, rfl, rest'⟩ := map_shape_eq_insert rest
    cases List.map_eq_nil_iff.1 rest'
    obtain ⟨ss, hss, rfl⟩ := statements.placed eqStatements
    exact ⟨_, .braces opening hss closing, by simp [Block.shape]⟩

/-- Statements derive from tokens of the same shapes. -/
theorem DerivesStatement.placed {v : List Token} {s : Stmt} : DerivesStatement v s →
    ∀ {w : List Token}, w.map Token.shape = v → ∃ s', DerivesStatement w s' ∧ s'.shape = s
  | .letStmt kind name equal value, _, eq => by
    obtain ⟨t, w, rfl, rfl, rest⟩ := List.map_eq_cons_iff.1 eq
    obtain ⟨t', w, rfl, rfl, rest'⟩ := List.map_eq_cons_iff.1 rest
    obtain ⟨t'', w, rfl, rfl, rest''⟩ := List.map_eq_cons_iff.1 rest'
    obtain ⟨a, ha, rfl⟩ := value.placed rest''
    exact ⟨_, .letStmt kind name equal ha, by simp [Stmt.shape, Identifier.shape]⟩
  | .returnStmt kind value, _, eq => by
    obtain ⟨t, w, rfl, rfl, rest⟩ := List.map_eq_cons_iff.1 eq
    obtain ⟨a, ha, rfl⟩ := value.placed rest
    exact ⟨_, .returnStmt kind ha, by simp [Stmt.shape]⟩
  | .exprStmt value, _, eq => by
    obtain ⟨a, ha, rfl⟩ := value.placed eq
    exact ⟨_, .exprStmt ha, by simp [Stmt.shape]⟩

/-- Rows of statements derive from tokens of the same shapes. -/
theorem DerivesStatements.placed {v : List Token} {ss : List Stmt} : DerivesStatements v ss →
    ∀ {w : List Token}, w.map Token.shape = v →
      ∃ ss', DerivesStatements w ss' ∧ Stmt.shapes ss' = ss
  | .none, _, eq => by
    cases List.map_eq_nil_iff.1 eq
    exact ⟨[], .none, rfl⟩
  | .ended first kind others, _, eq => by
    obtain ⟨v, semicolon, w, rfl, eqFirst, rfl, eqOthers⟩ := map_shape_eq_insert eq
    obtain ⟨s, hs, rfl⟩ := first.placed eqFirst
    obtain ⟨ss, hss, rfl⟩ := others.placed eqOthers
    exact ⟨_, .ended hs kind hss, by simp [Stmt.shapes, shape_endedBy]⟩
  | .bare first apart others, _, eq => by
    obtain ⟨v, w, rfl, eqFirst, eqOthers⟩ := List.map_eq_append_iff.1 eq
    obtain ⟨s, hs, rfl⟩ := first.placed eqFirst
    obtain ⟨ss, hss, rfl⟩ := others.placed eqOthers
    subst eqOthers
    exact ⟨_, .bare hs (next_map_shape.1 apart) hss, rfl⟩

end

end Grammar

section Leaves

/-- A name is spelled as an identifier. -/
lemma kind_word {name : String} (h : IsName name) : (Token.word name).kind = .identifier := by
  rw [Token.word, TokenKind.ofWord, h.2.2.2]
  rfl

-- The marks and the words that trees are spelled with.
-- The kinds of single tokens, each of which says in a derivation which token is meant.

lemma kind_leftParen : (Token.mark '(').kind = .leftParen := rfl

lemma kind_rightParen : (Token.mark ')').kind = .rightParen := rfl

lemma kind_leftBrace : (Token.mark '\x7b').kind = .leftBrace := rfl

lemma kind_rightBrace : (Token.mark '\x7d').kind = .rightBrace := rfl

lemma kind_comma : (Token.mark ',').kind = .comma := rfl

lemma kind_semicolon : (Token.mark ';').kind = .semicolon := rfl

lemma kind_assign : (Token.mark '=').kind = .assign := rfl

lemma kind_if : (Token.word "if").kind = .ifWord := rfl

lemma kind_else : (Token.word "else").kind = .elseWord := rfl

lemma kind_fn : (Token.word "fn").kind = .fnWord := rfl

lemma kind_let : (Token.word "let").kind = .letWord := rfl

lemma kind_return : (Token.word "return").kind = .returnWord := rfl

/-- A prefix operator is spelled as the token that means it. -/
lemma PrefixOp.ofKind?_token (op : PrefixOp) : ofKind? op.token.kind = some op := by
  cases op <;> rfl

/-- An infix operator is spelled as the token that means it. -/
lemma InfixOp.ofKind?_token (op : InfixOp) : ofKind? op.token.kind = some op := by
  cases op <;> rfl

/-- A constant that can be written derives from its token. -/
lemma Literal.derives_token {l : Literal} (h : l.IsWritable) :
    Derives .call [l.token] (.literal l .nowhere) := by
  cases l with
  | integer n => exact .integer rfl (Numeral.int64?_ofInt h)
  | boolean b =>
    cases b with
    | true => exact .trueWord rfl
    | false => exact .falseWord rfl
  | string text => exact .string rfl

/-- The parameters of a function derive from their tokens. -/
lemma Identifier.parameters_paramTokens : ∀ {params : List Identifier},
    (∀ x ∈ params, IsName x.name) → Parameters (paramTokens params) (params.map Identifier.shape)
  | [], _ => .none
  | [x], h => .last (kind_word (h x List.mem_cons_self))
  | x :: _ :: _, h =>
    .more (kind_word (h x List.mem_cons_self)) rfl
      (parameters_paramTokens fun x mem => h x (List.mem_cons_of_mem _ mem))

/-- The first token of an expression continues another one only if it is a parenthesis. -/
lemma Expr.tokens_apart : ∀ {e : Expr}, e.Meets .writable → e.opensGroup = false →
    ∃ t w, e.tokens = t :: w ∧ Apart t.kind
  | .literal (.integer _) _, _, _ => ⟨_, _, rfl, (by decide : Apart .int)⟩
  | .literal (.boolean true) _, _, _ => ⟨_, _, rfl, (by decide : Apart .trueWord)⟩
  | .literal (.boolean false) _, _, _ => ⟨_, _, rfl, (by decide : Apart .falseWord)⟩
  | .literal (.string _) _, _, _ => ⟨_, _, rfl, (by decide : Apart .string)⟩
  | .identifier x, h, _ => by
    refine ⟨_, _, rfl, ?_⟩
    rw [kind_word h]
    decide
  | .conditional _ _ none _, _, _ | .conditional _ _ (some _) _, _, _ | .function .., _, _ =>
    ⟨_, _, rfl, by decide⟩
  | .call callee _ _, h, apart => by
    obtain ⟨t, w, eq, apart⟩ := Expr.tokens_apart h.1 apart
    exact ⟨t, _, by rw [tokens, eq, List.cons_append], apart⟩

/-- The tokens of a statement that opens no group stand apart from what is in front of them. -/
lemma Stmt.tokens_apart {s : Stmt} (h : s.Meets .writable) (apart : s.opensGroup = false) :
    ∃ t w, s.tokens = t :: w ∧ Apart t.kind := by
  cases s with
  | letStmt => exact ⟨_, _, rfl, by decide⟩
  | returnStmt => exact ⟨_, _, rfl, by decide⟩
  | exprStmt value _ => exact Expr.tokens_apart h apart

/-- A call of an expression with one in parentheses, both without a place. -/
lemma Grammar.Derives.callOf {v w : List Token} {a e : Expr} (callee : Derives .call v a)
    (nowhere : a.span = .nowhere) (inner : Derives .lowest w e) :
    Derives .call (v ++ Token.enclosed w) (.call a [e] .nowhere) := by
  have derives := Derives.call callee kind_leftParen (.last inner) kind_rightParen
  rw [nowhere] at derives
  exact derives

end Leaves

mutual

/-- A spelled expression derives what it is read as. -/
lemma Expr.derives_tokens : ∀ {e : Expr}, e.Meets .writable → Derives .call e.tokens e.reread
  | .literal _ _, h => Literal.derives_token h
  | .identifier _, h => .identifier (kind_word h)
  | .unary op operand span, h => by
    obtain ⟨v, eq, inner⟩ := Expr.derives_operation (e := .unary op operand span) h rfl
    rw [eq]
    exact .group rfl inner rfl
  | .binary op left right span, h => by
    obtain ⟨v, eq, inner⟩ := Expr.derives_operation (e := .binary op left right span) h rfl
    rw [eq]
    exact .group rfl inner rfl
  | .conditional condition consequence none _, h => by
    obtain ⟨v, eq, inner⟩ := Expr.derives_condition h.1
    have derives := Derives.conditional kind_if kind_leftParen inner kind_rightParen
      (Block.derives_tokens h.2)
    rw [Block.span_reread] at derives
    rw [Expr.tokens, eq, Token.enclosed, List.cons_append, List.append_assoc]
    exact derives
  | .conditional condition consequence (some alternative) _, h => by
    obtain ⟨v, eq, inner⟩ := Expr.derives_condition h.1
    have derives := Derives.alternative kind_if kind_leftParen inner kind_rightParen
      (Block.derives_tokens h.2.1) kind_else (Block.derives_tokens h.2.2)
    rw [Block.span_reread] at derives
    rw [Expr.tokens, eq, Token.enclosed, List.cons_append, List.append_assoc]
    exact derives
  | .function params body _, h => by
    have derives := Derives.function kind_fn kind_leftParen
      (Identifier.parameters_paramTokens h.1) kind_rightParen (Block.derives_tokens h.2)
    rw [Block.span_reread] at derives
    rw [Expr.tokens, Token.enclosed, List.cons_append, List.append_assoc]
    exact derives
  | .call callee args _, h => by
    have derives := Derives.call (Expr.derives_tokens h.1) kind_leftParen
      (Expr.derives_argTokens h.2) kind_rightParen
    rw [Expr.span_reread] at derives
    exact derives

/-- An operation is spelled in parentheses. -/
lemma Expr.derives_operation : ∀ {e : Expr}, e.Meets .writable → e.isOperation →
    ∃ v, e.tokens = Token.enclosed v ∧ Derives .lowest v e.reread
  | .unary op operand _, h, _ => by
    have derives := Derives.unary op.ofKind?_token
      ((Expr.derives_tokens (e := operand) h).loosen (by decide : Precedence.unary.rank ≤ _))
    rw [Expr.span_reread] at derives
    exact ⟨_, rfl, derives.loosen (by decide)⟩
  | .binary op left right _, h, _ => by
    have derives := Derives.binary ((Expr.derives_tokens h.1).loosen (by cases op <;> decide))
      op.ofKind?_token ((Expr.derives_tokens h.2).loosen (by cases op <;> decide))
    rw [Expr.span_reread, Expr.span_reread] at derives
    exact ⟨_, rfl, derives.loosen (Nat.zero_le _)⟩

/-- A condition is spelled in parentheses. -/
lemma Expr.derives_condition : ∀ {e : Expr}, e.Meets .writable →
    ∃ v, (if e.isOperation then e.tokens else Token.enclosed e.tokens) = Token.enclosed v ∧
      Derives .lowest v e.reread
  | e, h => by
    cases operation : e.isOperation with
    | true => exact Expr.derives_operation h operation
    | false => exact ⟨_, rfl, (Expr.derives_tokens h).loosen (by decide)⟩

/-- Behind another expression, an expression with a parenthesis in front derives arguments. -/
lemma Expr.derives_join : ∀ {e a : Expr} {v : List Token}, e.Meets .writable → e.opensGroup →
    Derives .call v a → a.span = .nowhere → Derives .call (v ++ e.tokens) (a.join e.reread)
  | .unary op operand span, _, _, h, _, callee, nowhere => by
    obtain ⟨w, eq, inner⟩ := Expr.derives_operation (e := .unary op operand span) h rfl
    rw [eq]
    exact callee.callOf nowhere inner
  | .binary op left right span, _, _, h, _, callee, nowhere => by
    obtain ⟨w, eq, inner⟩ := Expr.derives_operation (e := .binary op left right span) h rfl
    rw [eq]
    exact callee.callOf nowhere inner
  | .call callee args _, _, _, h, opens, first, nowhere => by
    have derives := Derives.call (Expr.derives_join h.1 opens first nowhere) kind_leftParen
      (Expr.derives_argTokens h.2) kind_rightParen
    rw [Expr.span_join] at derives
    rw [Expr.tokens, ← List.append_assoc]
    exact derives

/-- The tokens of arguments derive the arguments as they are read. -/
lemma Expr.derives_argTokens : ∀ {es : List Expr}, Expr.AllMeet .writable es →
    DerivesArguments (Expr.argTokens es) (Expr.rereadArgs es)
  | [], _ => .none
  | first :: others, h =>
    Expr.derives_moreArgTokens ((Expr.derives_tokens h.1).loosen (by decide)) h.2

/-- The tokens of further arguments derive them behind a first one. -/
lemma Expr.derives_moreArgTokens : ∀ {es : List Expr} {v : List Token} {a : Expr},
    Derives .lowest v a → Expr.AllMeet .writable es →
      DerivesArguments (v ++ Expr.moreArgTokens es) (a :: Expr.rereadArgs es)
  | [], v, _, first, _ => by
    rw [Expr.moreArgTokens, List.append_nil]
    exact .last first
  | next :: others, _, _, first, h =>
    .more first kind_comma
      (Expr.derives_moreArgTokens ((Expr.derives_tokens h.1).loosen (by decide)) h.2)

/-- The tokens of a block derive the block as it is read. -/
lemma Block.derives_tokens : ∀ {b : Block}, b.Meets .writable → DerivesBlock b.tokens b.reread
  | ⟨statements, _⟩, h => .braces kind_leftBrace (Stmt.derives_bodyTokens h.2) kind_rightBrace

/-- Spelled statements derive what they are read as. -/
lemma Stmt.derives_bodyTokens : ∀ {ss : List Stmt}, Stmt.AllMeet .writable ss →
    DerivesStatements (Stmt.bodyTokens ss) (Stmt.rereadBody ss)
  | [], _ => .none
  | .letStmt x value span :: others, h => by
    have derived := (Expr.derives_tokens h.1.2).loosen (q := .lowest) (by decide)
    have derives := DerivesStatements.ended
      (.letStmt kind_let (kind_word h.1.1) kind_assign derived) kind_semicolon
      (Stmt.derives_bodyTokens h.2)
    rw [Expr.span_reread] at derives
    have tokens : Stmt.bodyTokens (.letStmt x value span :: others) = .word "let" :: .word x.name ::
        .mark '=' :: (value.tokens ++ .mark ';' :: Stmt.bodyTokens others) := by
      simp [Stmt.bodyTokens, Stmt.tokens]
    rw [tokens]
    exact derives
  | .returnStmt value span :: others, h => by
    have derived := (Expr.derives_tokens (e := value) h.1).loosen (q := .lowest) (by decide)
    have derives := DerivesStatements.ended (.returnStmt kind_return derived) kind_semicolon
      (Stmt.derives_bodyTokens h.2)
    rw [Expr.span_reread] at derives
    have tokens : Stmt.bodyTokens (.returnStmt value span :: others) = .word "return" ::
        (value.tokens ++ .mark ';' :: Stmt.bodyTokens others) := by
      simp [Stmt.bodyTokens, Stmt.tokens]
    rw [tokens]
    exact derives
  | .exprStmt value _ :: others, h =>
    Stmt.derives_behind (Expr.derives_tokens (e := value) h.1) value.span_reread h.2

/-- Behind an expression without a semicolon the first of the statements may derive a part of it. -/
lemma Stmt.derives_behind : ∀ {ss : List Stmt} {v : List Token} {a : Expr},
    Derives .call v a → a.span = .nowhere → Stmt.AllMeet .writable ss →
      DerivesStatements (v ++ Stmt.bodyTokens ss)
        (Stmt.before (.exprStmt a .nowhere) (Stmt.rereadBody ss))
  | [], v, a, first, nowhere, _ => by
    have derives := DerivesStatements.bare (.exprStmt (first.loosen (by decide))) next_nil .none
    rw [nowhere] at derives
    exact derives
  | s :: others, v, a, first, nowhere, h => by
    cases opens : s.opensGroup with
    | true =>
      cases s with
      | exprStmt value _ =>
        have joined := Stmt.derives_behind
          (Expr.derives_join (e := value) h.1 opens first nowhere) (Expr.span_join _ _) h.2
        have group : value.reread.opensGroup := by simpa [Stmt.opensGroup] using opens
        rw [Stmt.rereadBody, Stmt.reread, Stmt.before_before group, Stmt.bodyTokens,
          ← List.append_assoc]
        exact joined
      | _ => cases opens
    | false =>
      have apart : Next Apart (Stmt.bodyTokens (s :: others)) := by
        obtain ⟨t, w, eq, apart⟩ := Stmt.tokens_apart h.1 opens
        rw [Stmt.bodyTokens, eq]
        exact next_cons.2 apart
      have derives := DerivesStatements.bare (.exprStmt (first.loosen (by decide))) apart
        (Stmt.derives_bodyTokens h)
      obtain ⟨s', others', eq, same⟩ := Stmt.before_eq_cons s.reread (Stmt.rereadBody others)
      rw [nowhere] at derives
      rw [Stmt.rereadBody, eq, Stmt.before_eq_cons_iff.2 (by simp [same, opens])]
      rw [Stmt.rereadBody, eq] at derives
      exact derives

end

/-- A spelled program derives what it is read as. -/
theorem Program.derives_tokens {p : Program} (h : p.Meets .writable) :
    DerivesStatements p.tokens p.reread.statements :=
  Stmt.derives_bodyTokens h.2

end Monkey
