import Monkey.Syntax.Precedence
import Monkey.Text.Numeral
import Mathlib.Tactic.Lemma

/-!
# The stratified grammar

Which tokens derive which tree, by the levels of precedence. A level derives what the next tighter
one derives; a level of operators is left recursive, with an operand of the next tighter level on
the right. At the loosest level stand whole expressions, at the tightest one names, constants,
conditionals, functions and whatever stands in parentheses, each with any number of argument lists
behind it. A statement without a semicolon must not be followed by a token that would continue its
expression; that makes the trees unique. Spans are those of the tokens taken.
-/

namespace Monkey

/-- The next tighter level; none is tighter than calls. -/
def Precedence.tighter : Precedence → Precedence
  | .lowest => .equality
  | .equality => .comparison
  | .comparison => .sum
  | .sum => .product
  | .product => .unary
  | .unary => .call
  | .call => .call

/-- The statement together with the semicolon that stands there. -/
def Stmt.endedBy (stop : Span) : Stmt → Stmt
  | .letStmt x value span => .letStmt x value (span.merge stop)
  | .returnStmt value span => .returnStmt value (span.merge stop)
  | .exprStmt value span => .exprStmt value (span.merge stop)

/-- Whether the operand that an expression ends with is a conditional without an alternative. -/
def Expr.endsOpen : Expr → Bool
  | .unary _ operand _ => operand.endsOpen
  | .binary _ _ right _ => right.endsOpen
  | .conditional _ _ none _ => true
  | _ => false

namespace Grammar

/-- The first of these tokens, if there is one, is of such a kind. -/
def Next (P : TokenKind → Prop) (ts : List Token) : Prop := ∀ t ∈ ts.head?, P t.kind

/-- The kinds that do not continue an expression: no infix operator, no opening parenthesis. -/
def Apart (kind : TokenKind) : Prop := InfixOp.ofKind? kind = none ∧ kind ≠ .leftParen

instance : DecidablePred Apart := fun _ => instDecidableAnd

/-- Names between commas, or nothing. -/
inductive Parameters : List Token → List Identifier → Prop where
  | none :
    Parameters [] []
  | last {t} :
    t.kind = .identifier →
    Parameters [t] [⟨t.lexeme, t.span⟩]
  | more {t comma w x xs} :
    t.kind = .identifier →
    comma.kind = .comma →
    Parameters w (x :: xs) →
    Parameters (t :: comma :: w) (⟨t.lexeme, t.span⟩ :: x :: xs)

mutual

/-- The tokens derive the expression, at the level. -/
inductive Derives : Precedence → List Token → Expr → Prop where
  | tighter {p w e} :
    Derives p.tighter w e →
    Derives p w e
  | binary {op t v w left right} :
    Derives op.precedence v left →
    InfixOp.ofKind? t.kind = some op →
    Derives op.precedence.tighter w right →
    Derives op.precedence (v ++ t :: w) (.binary op left right (left.span.merge right.span))
  | unary {op t w operand} :
    PrefixOp.ofKind? t.kind = some op →
    Derives .unary w operand →
    Derives .unary (t :: w) (.unary op operand (t.span.merge operand.span))
  | call {v opening w closing callee args} :
    Derives .call v callee →
    opening.kind = .leftParen →
    DerivesArguments w args →
    closing.kind = .rightParen →
    Derives .call (v ++ opening :: (w ++ [closing]))
      (.call callee args (callee.span.merge closing.span))
  | identifier {t} :
    t.kind = .identifier →
    Derives .call [t] (.identifier ⟨t.lexeme, t.span⟩)
  | integer {t n} :
    t.kind = .int →
    Numeral.int64? t.lexeme = some n →
    Derives .call [t] (.literal (.integer n) t.span)
  | string {t} :
    t.kind = .string →
    Derives .call [t] (.literal (.string t.lexeme) t.span)
  | trueWord {t} :
    t.kind = .trueWord →
    Derives .call [t] (.literal (.boolean true) t.span)
  | falseWord {t} :
    t.kind = .falseWord →
    Derives .call [t] (.literal (.boolean false) t.span)
  | group {opening w closing e} :
    opening.kind = .leftParen →
    Derives .lowest w e →
    closing.kind = .rightParen →
    Derives .call (opening :: (w ++ [closing])) e
  | conditional {t opening v closing w condition consequence} :
    t.kind = .ifWord →
    opening.kind = .leftParen →
    Derives .lowest v condition →
    closing.kind = .rightParen →
    DerivesBlock w consequence →
    Derives .call (t :: opening :: (v ++ closing :: w))
      (.conditional condition consequence none (t.span.merge consequence.span))
  | alternative {t opening v closing w otherwise w' condition consequence alternative} :
    t.kind = .ifWord →
    opening.kind = .leftParen →
    Derives .lowest v condition →
    closing.kind = .rightParen →
    DerivesBlock w consequence →
    otherwise.kind = .elseWord →
    DerivesBlock w' alternative →
    Derives .call (t :: opening :: (v ++ closing :: (w ++ otherwise :: w')))
      (.conditional condition consequence (some alternative) (t.span.merge alternative.span))
  | function {t opening v closing w params body} :
    t.kind = .fnWord →
    opening.kind = .leftParen →
    Parameters v params →
    closing.kind = .rightParen →
    DerivesBlock w body →
    Derives .call (t :: opening :: (v ++ closing :: w))
      (.function params body (t.span.merge body.span))

/-- Expressions between commas, or nothing. -/
inductive DerivesArguments : List Token → List Expr → Prop where
  | none :
    DerivesArguments [] []
  | last {w e} :
    Derives .lowest w e →
    DerivesArguments w [e]
  | more {v comma w e e' es} :
    Derives .lowest v e →
    comma.kind = .comma →
    DerivesArguments w (e' :: es) →
    DerivesArguments (v ++ comma :: w) (e :: e' :: es)

/-- Statements between braces. -/
inductive DerivesBlock : List Token → Block → Prop where
  | braces {opening w closing statements} :
    opening.kind = .leftBrace →
    DerivesStatements w statements →
    closing.kind = .rightBrace →
    DerivesBlock (opening :: (w ++ [closing])) ⟨statements, opening.span.merge closing.span⟩

/-- A statement without the semicolon that may end it. -/
inductive DerivesStatement : List Token → Stmt → Prop where
  | letStmt {t name equal w value} :
    t.kind = .letWord →
    name.kind = .identifier →
    equal.kind = .assign →
    Derives .lowest w value →
    DerivesStatement (t :: name :: equal :: w)
      (.letStmt ⟨name.lexeme, name.span⟩ value (t.span.merge value.span))
  | returnStmt {t w value} :
    t.kind = .returnWord →
    Derives .lowest w value →
    DerivesStatement (t :: w) (.returnStmt value (t.span.merge value.span))
  | exprStmt {w value} :
    Derives .lowest w value →
    DerivesStatement w (.exprStmt value value.span)

/-- Statements, each with a semicolon or before a token that does not continue it. -/
inductive DerivesStatements : List Token → List Stmt → Prop where
  | none :
    DerivesStatements [] []
  | ended {v semicolon w statement statements} :
    DerivesStatement v statement →
    semicolon.kind = .semicolon →
    DerivesStatements w statements →
    DerivesStatements (v ++ semicolon :: w) (statement.endedBy semicolon.span :: statements)
  | bare {v w statement statements} :
    DerivesStatement v statement →
    Next Apart w →
    DerivesStatements w statements →
    DerivesStatements (v ++ w) (statement :: statements)

end

section Next

variable {P Q : TokenKind → Prop} {t : Token} {v w : List Token}

/-- At the end anything may be said of what comes next. -/
@[simp] lemma next_nil : Next P [] := by
  simp [Next]

/-- Next comes the first token. -/
@[simp] lemma next_cons : Next P (t :: w) ↔ P t.kind := by
  simp [Next]

/-- What comes next may be known by less. -/
lemma Next.mono (h : Next P w) (imp : ∀ k, P k → Q k) : Next Q w :=
  fun t first => imp t.kind (h t first)

/-- What comes next may be followed by a token of the kind. -/
lemma Next.before (h : Next P w) (last : P t.kind) : Next P (w ++ t :: v) := by
  cases w with
  | nil => exact next_cons.2 last
  | cons t' w => exact next_cons.2 (next_cons.1 h)

/-- A list begins with a token of a kind, or not. -/
lemma next_or (kind : TokenKind) (w : List Token) :
    (∃ t w', w = t :: w' ∧ t.kind = kind) ∨ Next (· ≠ kind) w := by
  cases w with
  | nil => exact .inr next_nil
  | cons t w =>
    by_cases same : t.kind = kind
    · exact .inl ⟨t, w, rfl, same⟩
    · exact .inr (next_cons.2 same)

end Next

/-- The last of the tokens closes the consequence of a conditional without an alternative. -/
def ClosesConsequence (w : List Token) (e : Expr) : Prop :=
  (∃ t ∈ w.getLast?, t.kind = .rightBrace) ∧ e.endsOpen = true

/-- What a list ends with does not depend on what stands before it. -/
lemma closesConsequence_append {v w : List Token} {e : Expr} (h : w ≠ []) :
    ClosesConsequence (v ++ w) e ↔ ClosesConsequence w e := by
  obtain ⟨w', t, rfl⟩ : ∃ w' t, w = w' ++ [t] := ⟨_, _, (List.dropLast_concat_getLast h).symm⟩
  rw [ClosesConsequence, ClosesConsequence, ← List.append_assoc, List.getLast?_concat,
    List.getLast?_concat]

/-- A token that is no closing brace closes no consequence. -/
lemma not_closesConsequence {w : List Token} {t : Token} {e : Expr} (kind : t.kind ≠ .rightBrace) :
    ¬ ClosesConsequence (w ++ [t]) e := by
  rintro ⟨⟨t', last, brace⟩, _⟩
  rw [List.getLast?_concat] at last
  cases last
  exact kind brace

/-- A last operand counts, whatever stands in front of it. -/
lemma closesConsequence_unary {op : PrefixOp} {w : List Token} {e : Expr} {span : Span} :
    ClosesConsequence w (.unary op e span) ↔ ClosesConsequence w e := by
  simp [ClosesConsequence, Expr.endsOpen]

/-- The last operand of an operation counts. -/
lemma closesConsequence_binary {op : InfixOp} {w : List Token} {left right : Expr} {span : Span} :
    ClosesConsequence w (.binary op left right span) ↔ ClosesConsequence w right := by
  simp [ClosesConsequence, Expr.endsOpen]

/-- A conditional without an alternative ends with its consequence. -/
lemma closesConsequence_conditional {u w : List Token} {condition : Expr} {b : Block} {span : Span}
    (h : DerivesBlock w b) : ClosesConsequence (u ++ w) (.conditional condition b none span) := by
  cases h with
  | @braces opening w closing _ _ _ close =>
    refine ⟨⟨closing, ?_, close⟩, rfl⟩
    rw [← List.cons_append, ← List.append_assoc, List.getLast?_concat]
    rfl

/-- The tighter precedence is one rank up, but for the last. -/
lemma rank_tighter {p q : Precedence} (h : p.rank < q.rank) : p.tighter.rank = p.rank + 1 := by
  cases p with
  | call => cases q <;> cases h <;> contradiction
  | _ => rfl

/-- No precedence is tighter than the tighter one. -/
lemma rank_le_tighter (p : Precedence) : p.rank ≤ p.tighter.rank := by
  cases p <;> decide

/-- Precedences of one rank are one. -/
lemma rank_injective {p q : Precedence} (h : p.rank = q.rank) : p = q := by
  cases p <;> cases q <;> first | rfl | cases h

/-- What a tighter level derives, a looser one derives too. -/
lemma Derives.loosen {p q : Precedence} {w : List Token} {e : Expr} (h : Derives p w e)
    (le : q.rank ≤ p.rank) : Derives q w e := by
  obtain ⟨n, eq⟩ := Nat.exists_eq_add_of_le le
  induction n generalizing q with
  | zero => exact rank_injective eq ▸ h
  | succ n ih =>
    have step := rank_tighter (p := q) (q := p) (by omega)
    exact .tighter (ih (by omega) (by omega))

/-- The kinds that an expression begins with. -/
def Begins (kind : TokenKind) : Prop :=
  kind ∈ [.identifier, .int, .string, .trueWord, .falseWord, .minus, .bang, .leftParen, .ifWord,
    .fnWord]

instance : DecidablePred Begins := fun kind => inferInstanceAs (Decidable (kind ∈ _))

/-- What begins an expression is none of what does not. -/
lemma Begins.ne {k k' : TokenKind} (h : Begins k) (not : ¬ Begins k') : k ≠ k' := by
  rintro rfl
  exact not h

/-- An expression is not empty, and its first token begins an expression. -/
lemma Derives.begins {p : Precedence} {w : List Token} {e : Expr} :
    Derives p w e → ∃ t w', w = t :: w' ∧ Begins t.kind
  | .tighter h => h.begins
  | .binary left _ _ => by
    obtain ⟨t, w', rfl, first⟩ := left.begins
    exact ⟨t, _, rfl, first⟩
  | .call callee _ _ _ => by
    obtain ⟨t, w', rfl, first⟩ := callee.begins
    exact ⟨t, _, rfl, first⟩
  | .unary (t := t) found _ => by
    refine ⟨t, _, rfl, ?_⟩
    revert found
    cases t.kind with
    | minus | bang =>
      intro _
      decide
    | _ => nofun
  | .identifier kind | .integer kind _ | .string kind | .trueWord kind | .falseWord kind
  | .group kind _ _ | .conditional kind _ _ _ _ | .alternative kind _ _ _ _ _ _
  | .function kind _ _ _ _ => by
    refine ⟨_, _, rfl, ?_⟩
    rw [kind]
    decide

/-- No expression derives from no tokens. -/
lemma Derives.ne_nil {p : Precedence} {w : List Token} {e : Expr} (h : Derives p w e) :
    w ≠ [] := by
  obtain ⟨t, w', rfl, _⟩ := h.begins
  exact List.cons_ne_nil t w'

/-- The kinds that a statement begins with. -/
def Opens (kind : TokenKind) : Prop := kind = .letWord ∨ kind = .returnWord ∨ Begins kind

instance : DecidablePred Opens := fun _ => instDecidableOr

/-- What begins a statement is none of what does not. -/
lemma Opens.ne {k k' : TokenKind} (h : Opens k) (not : ¬ Opens k') : k ≠ k' := by
  rintro rfl
  exact not h

/-- A statement is not empty, and its first token begins a statement. -/
lemma DerivesStatement.opens {w : List Token} {s : Stmt} (h : DerivesStatement w s) :
    ∃ t w', w = t :: w' ∧ Opens t.kind := by
  cases h with
  | letStmt kind _ _ _ => exact ⟨_, _, rfl, .inl kind⟩
  | returnStmt kind _ => exact ⟨_, _, rfl, .inr (.inl kind)⟩
  | exprStmt value =>
    obtain ⟨t, w', rfl, begins⟩ := value.begins
    exact ⟨t, w', rfl, .inr (.inr begins)⟩

/-- Statements begin with what begins a statement. -/
lemma DerivesStatements.opens {w : List Token} {statements : List Stmt}
    (h : DerivesStatements w statements) : Next Opens w := by
  cases h with
  | none => exact next_nil
  | ended statement _ _ =>
    obtain ⟨t, w', rfl, opens⟩ := statement.opens
    exact next_cons.2 opens
  | bare statement _ _ =>
    obtain ⟨t, w', rfl, opens⟩ := statement.opens
    exact next_cons.2 opens

/-- Arguments begin with what begins an expression. -/
lemma DerivesArguments.begins {w : List Token} {e : Expr} {es : List Expr}
    (h : DerivesArguments w (e :: es)) : ∃ t w', w = t :: w' ∧ Begins t.kind := by
  cases h with
  | last first => exact first.begins
  | more first _ _ =>
    obtain ⟨t, w', rfl, begins⟩ := first.begins
    exact ⟨t, _, rfl, begins⟩

end Grammar

end Monkey
