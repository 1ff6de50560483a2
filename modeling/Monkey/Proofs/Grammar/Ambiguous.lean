import Monkey.Proofs.Grammar.Stratified

/-!
# The ambiguous grammar

Which tokens form a program, without a word on what belongs together: the operators of an expression
may be grouped in any way, and where a semicolon is left out any token may follow. What the
stratified grammar derives is of this form. Main statement: `DerivesStatements.isProgram`; the
converse takes reshaping.
-/

namespace Monkey.Grammar

mutual

/-- The tokens form an expression. -/
inductive IsExpr : List Token → Prop where
  | identifier {t} :
    t.kind = .identifier →
    IsExpr [t]
  | integer {t n} :
    t.kind = .int →
    Numeral.int64? t.lexeme = some n →
    IsExpr [t]
  | string {t} :
    t.kind = .string →
    IsExpr [t]
  | trueWord {t} :
    t.kind = .trueWord →
    IsExpr [t]
  | falseWord {t} :
    t.kind = .falseWord →
    IsExpr [t]
  | group {opening w closing} :
    opening.kind = .leftParen →
    IsExpr w →
    closing.kind = .rightParen →
    IsExpr (opening :: (w ++ [closing]))
  | conditional {t opening v closing w} :
    t.kind = .ifWord →
    opening.kind = .leftParen →
    IsExpr v →
    closing.kind = .rightParen →
    IsBlock w →
    IsExpr (t :: opening :: (v ++ closing :: w))
  | alternative {t opening v closing w otherwise w'} :
    t.kind = .ifWord →
    opening.kind = .leftParen →
    IsExpr v →
    closing.kind = .rightParen →
    IsBlock w →
    otherwise.kind = .elseWord →
    IsBlock w' →
    IsExpr (t :: opening :: (v ++ closing :: (w ++ otherwise :: w')))
  | function {t opening v closing w params} :
    t.kind = .fnWord →
    opening.kind = .leftParen →
    Parameters v params →
    closing.kind = .rightParen →
    IsBlock w →
    IsExpr (t :: opening :: (v ++ closing :: w))
  | unary {op t w} :
    PrefixOp.ofKind? t.kind = some op →
    IsExpr w →
    IsExpr (t :: w)
  | binary {op t v w} :
    IsExpr v →
    InfixOp.ofKind? t.kind = some op →
    IsExpr w →
    IsExpr (v ++ t :: w)
  | call {v opening w closing} :
    IsExpr v →
    opening.kind = .leftParen →
    IsArguments w →
    closing.kind = .rightParen →
    IsExpr (v ++ opening :: (w ++ [closing]))

/-- The tokens are expressions between commas, or nothing. -/
inductive IsArguments : List Token → Prop where
  | none :
    IsArguments []
  | last {w} :
    IsExpr w →
    IsArguments w
  | more {v comma w} :
    IsExpr v →
    comma.kind = .comma →
    IsArguments w →
    w ≠ [] →
    IsArguments (v ++ comma :: w)

/-- The tokens are statements between braces. -/
inductive IsBlock : List Token → Prop where
  | braces {opening w closing} :
    opening.kind = .leftBrace →
    IsProgram w →
    closing.kind = .rightBrace →
    IsBlock (opening :: (w ++ [closing]))

/-- The tokens form a statement without the semicolon that may end it. -/
inductive IsClause : List Token → Prop where
  | letStmt {t name equal w} :
    t.kind = .letWord →
    name.kind = .identifier →
    equal.kind = .assign →
    IsExpr w →
    IsClause (t :: name :: equal :: w)
  | returnStmt {t w} :
    t.kind = .returnWord →
    IsExpr w →
    IsClause (t :: w)
  | exprStmt {w} :
    IsExpr w →
    IsClause w

/-- The tokens form any number of statements, each with a semicolon or without. -/
inductive IsProgram : List Token → Prop where
  | none :
    IsProgram []
  | ended {v semicolon w} :
    IsClause v →
    semicolon.kind = .semicolon →
    IsProgram w →
    IsProgram (v ++ semicolon :: w)
  | bare {v w} :
    IsClause v →
    IsProgram w →
    IsProgram (v ++ w)

end

mutual

/-- What derives an expression is one. -/
theorem Derives.isExpr {p : Precedence} {w : List Token} {e : Expr} : Derives p w e → IsExpr w
  | .tighter h => h.isExpr
  | .binary left found right => .binary left.isExpr found right.isExpr
  | .unary found operand => .unary found operand.isExpr
  | .call callee opening args closing => .call callee.isExpr opening args.isArguments closing
  | .identifier kind => .identifier kind
  | .integer kind found => .integer kind found
  | .string kind => .string kind
  | .trueWord kind => .trueWord kind
  | .falseWord kind => .falseWord kind
  | .group opening inner closing => .group opening inner.isExpr closing
  | .conditional kind opening condition closing consequence =>
    .conditional kind opening condition.isExpr closing consequence.isBlock
  | .alternative kind opening condition closing consequence isElse alternative =>
    .alternative kind opening condition.isExpr closing consequence.isBlock isElse
      alternative.isBlock
  | .function kind opening params closing body =>
    .function kind opening params closing body.isBlock

/-- Arguments that derive in layers are arguments. -/
theorem DerivesArguments.isArguments {w : List Token} {es : List Expr} :
    DerivesArguments w es → IsArguments w
  | .none => .none
  | .last first => .last first.isExpr
  | .more first isComma others => by
    refine .more first.isExpr isComma others.isArguments ?_
    obtain ⟨t, w, rfl, _⟩ := others.begins
    exact List.cons_ne_nil t w

/-- A block that derives in layers is a block. -/
theorem DerivesBlock.isBlock {w : List Token} {b : Block} : DerivesBlock w b → IsBlock w
  | .braces opening statements closing => .braces opening statements.isProgram closing

/-- A statement that derives in layers is a statement. -/
theorem DerivesStatement.isClause {w : List Token} {s : Stmt} : DerivesStatement w s → IsClause w
  | .letStmt kind name equal value => .letStmt kind name equal value.isExpr
  | .returnStmt kind value => .returnStmt kind value.isExpr
  | .exprStmt value => .exprStmt value.isExpr

/-- What derives statements is a program. -/
theorem DerivesStatements.isProgram {w : List Token} {statements : List Stmt} :
    DerivesStatements w statements → IsProgram w
  | .none => .none
  | .ended first kind others => .ended first.isClause kind others.isProgram
  | .bare first _ others => .bare first.isClause others.isProgram

end

/-- Some tokens are none of illegal kind. -/
def Legal (w : List Token) : Prop := ∀ t ∈ w, t.kind ≠ .illegal

/-- Tokens are legal exactly if the first one and the others are. -/
lemma legal_cons {t : Token} {w : List Token} : Legal (t :: w) ↔ t.kind ≠ .illegal ∧ Legal w :=
  List.forall_mem_cons

/-- Tokens are legal exactly if both parts are. -/
lemma legal_append {v w : List Token} : Legal (v ++ w) ↔ Legal v ∧ Legal w :=
  List.forall_mem_append

/-- No tokens are legal. -/
lemma legal_nil : Legal [] := nofun

/-- Parameters are legal. -/
lemma Parameters.legal {w : List Token} {xs : List Identifier} (h : Parameters w xs) :
    Legal w := by
  induction h with
  | none => exact legal_nil
  | last kind => exact legal_cons.2 ⟨by simp [kind], legal_nil⟩
  | more kind isComma _ ih =>
    exact legal_cons.2 ⟨by simp [kind], legal_cons.2 ⟨by simp [isComma], ih⟩⟩

mutual

/-- Expressions are legal. -/
theorem IsExpr.legal {w : List Token} : IsExpr w → Legal w
  | .identifier kind | .integer kind _ | .string kind | .trueWord kind | .falseWord kind =>
    legal_cons.2 ⟨by simp [kind], legal_nil⟩
  | .group opening inner closing => by
    simp [legal_cons, legal_append, legal_nil, opening, inner.legal, closing]
  | .conditional kind opening condition closing consequence => by
    simp [legal_cons, legal_append, kind, opening, condition.legal, closing, consequence.legal]
  | .alternative kind opening condition closing consequence isElse alternative => by
    simp [legal_cons, legal_append, kind, opening, condition.legal, closing, consequence.legal,
      isElse, alternative.legal]
  | .function kind opening params closing body => by
    simp [legal_cons, legal_append, kind, opening, params.legal, closing, body.legal]
  | .unary found operand => by
    refine legal_cons.2 ⟨fun illegal => ?_, operand.legal⟩
    rw [illegal] at found
    cases found
  | .binary left found right => by
    refine legal_append.2 ⟨left.legal, legal_cons.2 ⟨fun illegal => ?_, right.legal⟩⟩
    rw [illegal] at found
    cases found
  | .call callee opening args closing => by
    simp [legal_cons, legal_append, legal_nil, callee.legal, opening, args.legal, closing]

/-- Arguments are legal. -/
theorem IsArguments.legal {w : List Token} : IsArguments w → Legal w
  | .none => legal_nil
  | .last first => first.legal
  | .more first isComma others _ => by
    simp [legal_cons, legal_append, first.legal, isComma, others.legal]

/-- Blocks are legal. -/
theorem IsBlock.legal {w : List Token} : IsBlock w → Legal w
  | .braces opening statements closing => by
    simp [legal_cons, legal_append, legal_nil, opening, statements.legal, closing]

/-- Statements are legal. -/
theorem IsClause.legal {w : List Token} : IsClause w → Legal w
  | .letStmt kind name equal value => by
    simp [legal_cons, kind, name, equal, value.legal]
  | .returnStmt kind value => by
    simp [legal_cons, kind, value.legal]
  | .exprStmt value => value.legal

/-- A program has no illegal token. -/
theorem IsProgram.legal {w : List Token} : IsProgram w → Legal w
  | .none => legal_nil
  | .ended first kind others => by
    simp [legal_cons, legal_append, first.legal, kind, others.legal]
  | .bare first others => legal_append.2 ⟨first.legal, others.legal⟩

end

end Monkey.Grammar
