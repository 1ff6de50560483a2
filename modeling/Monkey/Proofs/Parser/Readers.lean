import Monkey.Proofs.Parser.Context

/-!
# What the readers read

Each reader, described by the readers it calls: `Reads` says that a reader succeeds with a value and
leaves the rest of the tokens, without the bound on their number that its result carries.
-/

namespace Monkey.Parser

variable {ts : List Token}

/-- Where some kind does not come next, the tokens do not begin with a token of that kind. -/
lemma not_cons_of_next {kind : TokenKind} (h : Grammar.Next (· ≠ kind) ts) (lexeme : String)
    (span : Span) (rest : List Token) : ts = ⟨kind, lexeme, span⟩ :: rest → False := by
  rintro rfl
  exact Grammar.next_cons.1 h rfl

/-- What a reader hands over: a value and the tokens that follow. -/
class Outcome (R : Type) (α : outParam Type) where
  value : R → α
  rest : R → List Token

instance {α : Type} : Outcome (Parsed α ts) α := ⟨Parsed.value, Parsed.rest⟩

instance {α : Type} : Outcome (Extended α ts) α := ⟨Extended.value, Extended.rest⟩

/-- The reader succeeds with this value and leaves these tokens. -/
def Reads {R α : Type} [Outcome R α] (x : Except Failure R) (value : α) (rest : List Token) :
    Prop :=
  ∃ r, x = .ok r ∧ Outcome.value r = value ∧ Outcome.rest r = rest

section Outcome

variable {R R' α β : Type} [Outcome R α] [Outcome R' β]

/-- A reader that is done has read its value. -/
lemma reads_ok {r : R} {value : α} {rest : List Token} :
    Reads (.ok r) value rest ↔ Outcome.value r = value ∧ Outcome.rest r = rest := by
  constructor
  · rintro ⟨r', eq, same⟩
    cases eq
    exact same
  · intro same
    exact ⟨r, rfl, same⟩

/-- A reader after a reader. -/
lemma reads_bind {x : Except Failure R} {f : R → Except Failure R'} {value : β}
    {rest : List Token} {S : α → List Token → Prop}
    (next : ∀ r, Reads (f r) value rest ↔ S (Outcome.value r) (Outcome.rest r)) :
    Reads (x >>= f) value rest ↔ ∃ a r, Reads x a r ∧ S a r := by
  cases x with
  | error e =>
    constructor
    · rintro ⟨_, eq, _⟩
      cases eq
    · rintro ⟨_, _, ⟨_, eq, _⟩, _⟩
      cases eq
  | ok r =>
    constructor
    · intro read
      exact ⟨_, _, reads_ok.2 ⟨rfl, rfl⟩, (next r).1 read⟩
    · rintro ⟨a, r', here, further⟩
      obtain ⟨rfl, rfl⟩ := reads_ok.1 here
      exact (next r).2 further

/-- A reader that broke off has read nothing. -/
lemma not_reads_fail {fault : Fault} {value : α} {rest : List Token} :
    ¬ Reads (fail fault ts : Except Failure R) value rest := by
  rintro ⟨_, eq, _⟩
  cases eq

end Outcome

/-- What is read leaves fewer tokens. -/
lemma Reads.shorter {α : Type} {x : Except Failure (Parsed α ts)} {value : α} {rest : List Token}
    (h : Reads x value rest) : rest.length < ts.length := by
  obtain ⟨r, _, _, rfl⟩ := h
  exact r.shorter

/-- A reader that carries the proof has read a value if it gives it with that proof. -/
lemma reads_iff {α : Type} {x : Except Failure (Parsed α ts)} {value : α} {rest : List Token} :
    Reads x value rest ↔ ∃ shorter, x = .ok ⟨value, rest, shorter⟩ := by
  constructor
  · rintro ⟨⟨value, rest, shorter⟩, eq, same, same'⟩
    cases same
    cases same'
    exact ⟨shorter, eq⟩
  · rintro ⟨shorter, eq⟩
    exact ⟨_, eq, rfl, rfl⟩

/-- Expecting a kind reads one token of that kind. -/
lemma reads_expect {kind : TokenKind} {t : Token} {rest : List Token} :
    Reads (expect kind ts) t rest ↔ ts = t :: rest ∧ t.kind = kind := by
  unfold expect
  split
  · constructor
    · intro read
      exact absurd read not_reads_fail
    · rintro ⟨eq, _⟩
      cases eq
  · rename_i t' rest'
    split
    · rename_i same
      rw [reads_ok]
      constructor
      · rintro ⟨rfl, rfl⟩
        exact ⟨rfl, same⟩
      · rintro ⟨eq, _⟩
        cases eq
        exact ⟨rfl, rfl⟩
    · rename_i different
      constructor
      · intro read
        exact absurd read not_reads_fail
      · rintro ⟨eq, same⟩
        cases eq
        exact absurd same different

/-- A name is read off one identifier. -/
lemma reads_name {x : Identifier} {rest : List Token} :
    Reads (name ts) x rest ↔
      ∃ t, ts = t :: rest ∧ t.kind = .identifier ∧ x = ⟨t.lexeme, t.span⟩ := by
  have parts : Reads (name ts) x rest ↔ ∃ t r, Reads (expect .identifier ts) t r ∧
      (⟨t.lexeme, t.span⟩ : Identifier) = x ∧ r = rest :=
    reads_bind fun _ => reads_ok
  rw [parts]
  constructor
  · rintro ⟨t, r, read, rfl, rfl⟩
    obtain ⟨rfl, kind⟩ := reads_expect.1 read
    exact ⟨t, rfl, kind, rfl⟩
  · rintro ⟨t, rfl, kind, rfl⟩
    exact ⟨t, rest, reads_expect.2 ⟨rfl, kind⟩, rfl, rfl⟩

/-- A parenthesis that closes at once leaves no parameters. -/
lemma reads_params_none {t : Token} {xs : List Identifier} {rest : List Token}
    (kind : t.kind = .rightParen) : Reads (params (t :: ts)) xs rest ↔ [] = xs ∧ ts = rest := by
  obtain ⟨_, lexeme, span⟩ := t
  cases kind
  rw [params]
  exact reads_ok

/-- Otherwise parameters are a name and more parameters. -/
lemma reads_params {xs : List Identifier} {rest : List Token}
    (notNone : Grammar.Next (· ≠ .rightParen) ts) :
    Reads (params ts) xs rest ↔ ∃ x r, Reads (name ts) x r ∧
      ∃ others r', Reads (moreParams r) others r' ∧ x :: others = xs ∧ r' = rest := by
  rw [params]
  · exact reads_bind fun _ => reads_bind fun _ => reads_ok
  · exact not_cons_of_next notNone

/-- Behind a comma more parameters are a name and the others. -/
lemma reads_moreParams_comma {t : Token} {xs : List Identifier} {rest : List Token}
    (kind : t.kind = .comma) :
    Reads (moreParams (t :: ts)) xs rest ↔ ∃ x r, Reads (name ts) x r ∧
      ∃ others r', Reads (moreParams r) others r' ∧ x :: others = xs ∧ r' = rest := by
  obtain ⟨_, lexeme, span⟩ := t
  cases kind
  rw [moreParams]
  exact reads_bind fun _ => reads_bind fun _ => reads_ok

/-- Without a comma the parameters must be closed. -/
lemma reads_moreParams_close {xs : List Identifier} {rest : List Token}
    (notComma : Grammar.Next (· ≠ .comma) ts) :
    Reads (moreParams ts) xs rest ↔ ∃ t r, Reads (expect .rightParen ts) t r ∧
      [] = xs ∧ r = rest := by
  rw [moreParams]
  · exact reads_bind fun _ => reads_ok
  · exact not_cons_of_next notComma

/-- An expression is an operand with the operators behind it. -/
lemma reads_expression {context : Precedence} {e : Expr} {rest : List Token} :
    Reads (expression context ts) e rest ↔
      ∃ first r, Reads (operand ts) first r ∧ Reads (operators context first r) e rest := by
  have parts : Reads (expression context ts) e rest ↔
      ∃ first r, Reads (operand ts) first r ∧
        ∃ whole r', Reads (operators context first r) whole r' ∧ whole = e ∧ r' = rest := by
    rw [expression]
    exact reads_bind fun _ => reads_bind fun _ => reads_ok
  simpa using parts

section Operands

variable {t : Token} {e : Expr} {rest : List Token}

/-- An identifier reads as its name. -/
lemma reads_operand_identifier (kind : t.kind = .identifier) :
    Reads (operand (t :: ts)) e rest ↔ .identifier ⟨t.lexeme, t.span⟩ = e ∧ ts = rest := by
  obtain ⟨_, lexeme, span⟩ := t
  cases kind
  rw [operand]
  exact reads_ok

/-- A whole number reads as its value if that fits into 64 bits. -/
lemma reads_operand_integer (kind : t.kind = .int) :
    Reads (operand (t :: ts)) e rest ↔
      ∃ n, Numeral.int64? t.lexeme = some n ∧ .literal (.integer n) t.span = e ∧ ts = rest := by
  obtain ⟨_, lexeme, span⟩ := t
  cases kind
  rw [operand]
  cases found : Numeral.int64? lexeme with
  | none =>
    constructor
    · intro read
      exact absurd read not_reads_fail
    · rintro ⟨n, eq, _⟩
      cases eq
  | some n =>
    refine reads_ok.trans ?_
    simp [Outcome.value, Outcome.rest]

/-- A text reads as itself. -/
lemma reads_operand_string (kind : t.kind = .string) :
    Reads (operand (t :: ts)) e rest ↔ .literal (.string t.lexeme) t.span = e ∧ ts = rest := by
  obtain ⟨_, lexeme, span⟩ := t
  cases kind
  rw [operand]
  exact reads_ok

/-- The word `true` reads as the truth value. -/
lemma reads_operand_true (kind : t.kind = .trueWord) :
    Reads (operand (t :: ts)) e rest ↔ .literal (.boolean true) t.span = e ∧ ts = rest := by
  obtain ⟨_, lexeme, span⟩ := t
  cases kind
  rw [operand]
  exact reads_ok

/-- The word `false` reads as the truth value. -/
lemma reads_operand_false (kind : t.kind = .falseWord) :
    Reads (operand (t :: ts)) e rest ↔ .literal (.boolean false) t.span = e ∧ ts = rest := by
  obtain ⟨_, lexeme, span⟩ := t
  cases kind
  rw [operand]
  exact reads_ok

/-- Behind a prefix operator an operand is an expression that binds tighter than all infix
operators. -/
lemma reads_operand_unary {op : PrefixOp} (found : PrefixOp.ofKind? t.kind = some op) :
    Reads (operand (t :: ts)) e rest ↔ ∃ value r, Reads (expression .unary ts) value r ∧
      Expr.unary op value (t.span.merge value.span) = e ∧ r = rest := by
  obtain ⟨kind, lexeme, span⟩ := t
  cases kind with
  | minus | bang =>
    cases found
    rw [operand]
    exact reads_bind fun _ => reads_ok
  | _ => cases found

/-- A group reads as what stands inside its parentheses. -/
lemma reads_operand_group (kind : t.kind = .leftParen) :
    Reads (operand (t :: ts)) e rest ↔ ∃ value r, Reads (expression .lowest ts) value r ∧
      ∃ t' r', Reads (expect .rightParen r) t' r' ∧ value = e ∧ r' = rest := by
  obtain ⟨_, lexeme, span⟩ := t
  cases kind
  rw [operand]
  exact reads_bind fun _ => reads_bind fun _ => reads_ok

/-- A conditional is a condition in parentheses, a block, and perhaps an alternative. -/
lemma reads_operand_conditional (kind : t.kind = .ifWord) :
    Reads (operand (t :: ts)) e rest ↔ ∃ t₁ r₁, Reads (expect .leftParen ts) t₁ r₁ ∧
      ∃ condition r₂, Reads (expression .lowest r₁) condition r₂ ∧
      ∃ t₃ r₃, Reads (expect .rightParen r₂) t₃ r₃ ∧
      ∃ consequence r₄, Reads (block r₃) consequence r₄ ∧
      ∃ alternative r₅, Reads (otherwise r₄) alternative r₅ ∧
        .conditional condition consequence alternative
          (t.span.merge (alternative.getD consequence).span) = e ∧ r₅ = rest := by
  obtain ⟨_, lexeme, span⟩ := t
  cases kind
  rw [operand]
  exact reads_bind fun _ => reads_bind fun _ => reads_bind fun _ => reads_bind fun _ =>
    reads_bind fun _ => reads_ok

/-- A function is its parameters in parentheses and a block. -/
lemma reads_operand_function (kind : t.kind = .fnWord) :
    Reads (operand (t :: ts)) e rest ↔ ∃ t₁ r₁, Reads (expect .leftParen ts) t₁ r₁ ∧
      ∃ names r₂, Reads (params r₁) names r₂ ∧
      ∃ body r₃, Reads (block r₂) body r₃ ∧
        .function names body (t.span.merge body.span) = e ∧ r₃ = rest := by
  obtain ⟨_, lexeme, span⟩ := t
  cases kind
  rw [operand]
  exact reads_bind fun _ => reads_bind fun _ => reads_bind fun _ => reads_ok

/-- An operand begins like an expression. -/
lemma begins_of_reads_operand (read : Reads (operand ts) e rest) :
    ∃ t ts', ts = t :: ts' ∧ Grammar.Begins t.kind := by
  cases ts with
  | nil =>
    rw [operand] at read
    exact absurd read not_reads_fail
  | cons t ts =>
    obtain ⟨kind, lexeme, span⟩ := t
    refine ⟨_, ts, rfl, ?_⟩
    show Grammar.Begins kind
    cases kind with
    | identifier | int | string | trueWord | falseWord | minus | bang | leftParen | ifWord
    | fnWord => decide
    | _ =>
      rw [operand] at read
      · exact absurd read not_reads_fail
      all_goals
        intros
        contradiction

end Operands

section Operators

variable {context : Precedence} {left e : Expr} {t : Token} {rest : List Token}

/-- Operators that do not bind tighter than the context are left for it. -/
lemma reads_operators_stop (stop : Grammar.Next (fun k => ¬ context < binding k) ts) :
    Reads (operators context left ts) e rest ↔ left = e ∧ ts = rest := by
  cases ts with
  | nil =>
    rw [operators]
    exact reads_ok
  | cons t ts =>
    obtain ⟨kind, lexeme, span⟩ := t
    have stop : ¬ context < binding kind := Grammar.next_cons.1 stop
    rw [operators]
    unfold binding at stop
    split
    · rename_i op found
      rw [found] at stop
      rw [if_neg stop]
      exact reads_ok
    · rename_i found
      rw [found] at stop
      rw [if_neg]
      · exact reads_ok
      · rintro ⟨rfl, below⟩
        exact stop below

/-- An infix operator that binds tighter than the context takes what is on its right. -/
lemma reads_operators_binary {op : InfixOp} (found : InfixOp.ofKind? t.kind = some op)
    (below : context < op.precedence) :
    Reads (operators context left (t :: ts)) e rest ↔
      ∃ right r, Reads (expression op.precedence ts) right r ∧
        Reads (operators context (.binary op left right (left.span.merge right.span)) r) e
          rest := by
  obtain ⟨kind, lexeme, span⟩ := t
  have parts : Reads (operators context left (⟨kind, lexeme, span⟩ :: ts)) e rest ↔
      ∃ right r, Reads (expression op.precedence ts) right r ∧ ∃ whole r',
        Reads (operators context (.binary op left right (left.span.merge right.span)) r) whole r' ∧
          whole = e ∧ r' = rest := by
    rw [operators]
    split
    · rename_i op' found'
      cases found'.symm.trans found
      rw [if_pos below]
      exact reads_bind fun _ => reads_bind fun _ => reads_ok
    · rename_i none
      cases none.symm.trans found
  simpa using parts

/-- A parenthesis that binds tighter than the context makes a call. -/
lemma reads_operators_call (kind : t.kind = .leftParen) (below : context < .call) :
    Reads (operators context left (t :: ts)) e rest ↔
      ∃ args r, Reads (arguments ts) args r ∧
        Reads (operators context (.call left args.1 (left.span.merge args.2)) r) e rest := by
  obtain ⟨_, lexeme, span⟩ := t
  cases kind
  have parts : Reads (operators context left (⟨.leftParen, lexeme, span⟩ :: ts)) e rest ↔
      ∃ args r, Reads (arguments ts) args r ∧ ∃ whole r',
        Reads (operators context (.call left args.1 (left.span.merge args.2)) r) whole r' ∧
          whole = e ∧ r' = rest := by
    rw [operators]
    split
    · rename_i found
      cases found
    · rw [if_pos ⟨rfl, below⟩]
      exact reads_bind fun _ => reads_bind fun _ => reads_ok
  simpa using parts

end Operators

section Lists

variable {t : Token} {args : List Expr × Span} {statements : List Stmt × Span} {rest : List Token}

/-- A parenthesis that closes at once leaves no arguments. -/
lemma reads_arguments_none (kind : t.kind = .rightParen) :
    Reads (arguments (t :: ts)) args rest ↔ ([], t.span) = args ∧ ts = rest := by
  obtain ⟨_, lexeme, span⟩ := t
  cases kind
  rw [arguments]
  exact reads_ok

/-- Otherwise arguments are an expression and more arguments. -/
lemma reads_arguments (notNone : Grammar.Next (· ≠ .rightParen) ts) :
    Reads (arguments ts) args rest ↔ ∃ first r, Reads (expression .lowest ts) first r ∧
      ∃ others r', Reads (moreArguments r) others r' ∧
        (first :: others.1, others.2) = args ∧ r' = rest := by
  rw [arguments]
  · exact reads_bind fun _ => reads_bind fun _ => reads_ok
  · exact not_cons_of_next notNone

/-- Behind a comma more arguments are an expression and the others. -/
lemma reads_moreArguments_comma (kind : t.kind = .comma) :
    Reads (moreArguments (t :: ts)) args rest ↔ ∃ next r, Reads (expression .lowest ts) next r ∧
      ∃ others r', Reads (moreArguments r) others r' ∧
        (next :: others.1, others.2) = args ∧ r' = rest := by
  obtain ⟨_, lexeme, span⟩ := t
  cases kind
  rw [moreArguments]
  exact reads_bind fun _ => reads_bind fun _ => reads_ok

/-- Without a comma the arguments must be closed. -/
lemma reads_moreArguments_close (notComma : Grammar.Next (· ≠ .comma) ts) :
    Reads (moreArguments ts) args rest ↔ ∃ t r, Reads (expect .rightParen ts) t r ∧
      ([], t.span) = args ∧ r = rest := by
  rw [moreArguments]
  · exact reads_bind fun _ => reads_ok
  · exact not_cons_of_next notComma

/-- A block is an opening brace with the statements up to the closing one. -/
lemma reads_block {b : Block} :
    Reads (block ts) b rest ↔ ∃ t r, Reads (expect .leftBrace ts) t r ∧
      ∃ statements r', Reads (body r) statements r' ∧
        ⟨statements.1, t.span.merge statements.2⟩ = b ∧ r' = rest := by
  rw [block]
  exact reads_bind fun _ => reads_bind fun _ => reads_ok

/-- Behind `else` stands a block. -/
lemma reads_otherwise_else {b : Option Block} (kind : t.kind = .elseWord) :
    Reads (otherwise (t :: ts)) b rest ↔
      ∃ alternative r, Reads (block ts) alternative r ∧ some alternative = b ∧ r = rest := by
  obtain ⟨_, lexeme, span⟩ := t
  cases kind
  rw [otherwise]
  exact reads_bind fun _ => reads_ok

/-- Without `else` there is no alternative. -/
lemma reads_otherwise_none {b : Option Block} (notElse : Grammar.Next (· ≠ .elseWord) ts) :
    Reads (otherwise ts) b rest ↔ none = b ∧ ts = rest := by
  rw [otherwise]
  · exact reads_ok
  · exact not_cons_of_next notElse

/-- At the end no body of a block can be read. -/
lemma not_reads_body_nil : ¬ Reads (body []) statements rest := by
  rw [body]
  exact not_reads_fail

/-- A closing brace ends the statements of a block. -/
lemma reads_body_close (kind : t.kind = .rightBrace) :
    Reads (body (t :: ts)) statements rest ↔ ([], t.span) = statements ∧ ts = rest := by
  obtain ⟨_, lexeme, span⟩ := t
  cases kind
  rw [body]
  exact reads_ok

/-- Otherwise a body is a statement and the rest of the body. -/
lemma reads_body (notClose : t.kind ≠ .rightBrace) :
    Reads (body (t :: ts)) statements rest ↔ ∃ first r, Reads (statement (t :: ts)) first r ∧
      ∃ others r', Reads (body r) others r' ∧
        (first :: others.1, others.2) = statements ∧ r' = rest := by
  rw [body]
  · exact reads_bind fun _ => reads_bind fun _ => reads_ok
  · rintro lexeme span rfl
    exact notClose rfl

end Lists

section Statements

variable {t : Token} {s : Stmt} {rest : List Token}

/-- The statement takes the semicolon that may stand there. -/
def Ends (s : Stmt) (ts : List Token) (s' : Stmt) (rest : List Token) : Prop :=
  (∃ t, ts = t :: rest ∧ t.kind = .semicolon ∧ s' = s.endedBy t.span) ∨
    Grammar.Next (· ≠ .semicolon) ts ∧ s' = s ∧ rest = ts

/-- The semicolon reader takes a semicolon if there is one. -/
lemma semicolon_iff_ends {span : Span} (make : Span → Stmt)
    (merge : ∀ stop, (make span).endedBy stop = make (span.merge stop)) :
    make (semicolon span ts).1 = s ∧ (semicolon span ts).2.1 = rest ↔
      Ends (make span) ts s rest := by
  unfold semicolon Ends
  split
  · rename_i lexeme stop ts
    constructor
    · rintro ⟨rfl, rfl⟩
      exact .inl ⟨_, rfl, rfl, (merge stop).symm⟩
    · rintro (⟨t, eq, _, rfl⟩ | ⟨not, _⟩)
      · cases eq
        exact ⟨(merge stop).symm, rfl⟩
      · exact absurd rfl (Grammar.next_cons.1 not)
  · rename_i none
    constructor
    · rintro ⟨rfl, rfl⟩
      refine .inr ⟨?_, rfl, rfl⟩
      rintro ⟨kind, lexeme, stop⟩ first
      obtain ⟨ts, rfl⟩ := List.head?_eq_some_iff.1 first
      rintro rfl
      exact none lexeme stop ts rfl
    · rintro (⟨⟨_, lexeme, stop⟩, eq, kind, _⟩ | ⟨_, rfl, rfl⟩)
      · cases kind
        exact absurd eq (none lexeme stop rest)
      · exact ⟨rfl, rfl⟩

/-- A binding is a name, an equals sign and an expression. -/
lemma reads_statement_let (kind : t.kind = .letWord) :
    Reads (statement (t :: ts)) s rest ↔ ∃ x r₁, Reads (name ts) x r₁ ∧
      ∃ t₂ r₂, Reads (expect .assign r₁) t₂ r₂ ∧
      ∃ value r₃, Reads (expression .lowest r₂) value r₃ ∧
        Ends (.letStmt x value (t.span.merge value.span)) r₃ s rest := by
  obtain ⟨_, lexeme, span⟩ := t
  cases kind
  rw [statement]
  exact reads_bind fun x => reads_bind fun _ => reads_bind fun value =>
    reads_ok.trans (semicolon_iff_ends (.letStmt x.value value.value) fun _ => rfl)

/-- A return is an expression behind the word. -/
lemma reads_statement_return (kind : t.kind = .returnWord) :
    Reads (statement (t :: ts)) s rest ↔ ∃ value r, Reads (expression .lowest ts) value r ∧
      Ends (.returnStmt value (t.span.merge value.span)) r s rest := by
  obtain ⟨_, lexeme, span⟩ := t
  cases kind
  rw [statement]
  exact reads_bind fun value =>
    reads_ok.trans (semicolon_iff_ends (.returnStmt value.value) fun _ => rfl)

/-- Any other statement is an expression. -/
lemma reads_statement_expr (other : Grammar.Next (fun k => k ≠ .letWord ∧ k ≠ .returnWord) ts) :
    Reads (statement ts) s rest ↔ ∃ value r, Reads (expression .lowest ts) value r ∧
      Ends (.exprStmt value value.span) r s rest := by
  rw [statement]
  · exact reads_bind fun value =>
      reads_ok.trans (semicolon_iff_ends (.exprStmt value.value) fun _ => rfl)
  · rintro lexeme span ts rfl
    exact absurd rfl (Grammar.next_cons.1 other).1
  · rintro lexeme span ts rfl
    exact absurd rfl (Grammar.next_cons.1 other).2

end Statements

end Monkey.Parser
