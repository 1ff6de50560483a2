import Monkey.Syntax.Precedence
import Monkey.Diagnostic
import Monkey.Text.Numeral

/-!
# Reading programs

Statements and expressions are read from the front of a list of tokens that holds no end marker;
each reader returns the tokens it left, with the proof that it took some. Expressions are read by
precedence: an operand, then every operator that binds more tightly than the context. All operators
lean to the left.

A statement that cannot be read breaks off with its `Failure`. It is left out of the program, one
diagnostic reports it, and reading goes on behind it: `resume` skips to the end of the statement,
across any braces it left open. So a text falls into segments, each a statement or a diagnostic.
-/

namespace Monkey

/-- Why a statement breaks off at a token. -/
inductive Fault where
  /-- Another kind of token has to stand here. -/
  | missing (expected : TokenKind)
  /-- The token begins no expression. -/
  | noExpression
  /-- The token belongs to no class. -/
  | illegal
  /-- The integer does not fit into 64 bits. -/
  | outOfRange
deriving DecidableEq, Repr

namespace Fault

/-- The code of a fault's diagnostics. -/
def code : Fault → String
  | .noExpression => "MK1001"
  | .missing _ => "MK1002"
  | .outOfRange => "MK1003"
  | .illegal => "MK1004"

/-- What a fault says about the token it was found at. -/
def message (found : Token) : Fault → String
  | .missing expected =>
    "expected next token to be '" ++ expected.text ++ "', got '" ++ found.description ++ "' instead"
  | .noExpression => "no prefix parse function for '" ++ found.description ++ "' found"
  | .illegal => "illegal token '" ++ found.lexeme ++ "'"
  | .outOfRange => "could not parse \"" ++ found.lexeme ++ "\" as integer"

/-- What stands beside the mark of a fault. -/
def label : Fault → String
  | .missing expected => "expected '" ++ expected.text ++ "'"
  | .noExpression => "expected an expression"
  | .illegal => "not valid here"
  | .outOfRange => "out of range"

/-- The hint that goes with a fault. -/
def help? : Fault → Option String
  | .outOfRange =>
    some ("integer literals must not exceed " ++ Numeral.ofInt Int64.maxValue.toInt)
  | _ => none

/-- The diagnostic for a fault at a token. -/
def diagnostic (found : Token) (fault : Fault) : Diagnostic :=
  { Diagnostic.ofSpan fault.code (fault.message found) found.span with
    label := fault.label
    help := fault.help? }

end Fault

/-- Why a statement broke off, and where: `left` counts the tokens from the one at fault to the
end. -/
structure Failure where
  fault : Fault
  left : Nat
deriving DecidableEq, Repr

/-- What was read from the front of `ts`, and the tokens that follow it. -/
structure Parsed (α : Type) (ts : List Token) where
  value : α
  rest : List Token
  shorter : rest.length < ts.length

/-- What was read from the front of `ts`, possibly without taking a token, and what follows. -/
structure Extended (α : Type) (ts : List Token) where
  value : α
  rest : List Token
  noLonger : rest.length ≤ ts.length

namespace Parser

/-- Breaks off at the first of the given tokens. -/
def fail {α : Type} (fault : Fault) (ts : List Token) : Except Failure α :=
  .error ⟨fault, ts.length⟩

/-- A token of the given kind. -/
def expect (kind : TokenKind) (ts : List Token) : Except Failure (Parsed Token ts) :=
  match ts with
  | [] => fail (.missing kind) []
  | t :: rest =>
    if t.kind = kind then .ok ⟨t, rest, Nat.lt_succ_self _⟩ else fail (.missing kind) (t :: rest)

/-- A name. -/
def name (ts : List Token) : Except Failure (Parsed Identifier ts) := do
  let ⟨t, rest, h⟩ ← expect .identifier ts
  return ⟨⟨t.lexeme, t.span⟩, rest, h⟩

/-- The parameters after one of them, each behind a comma, and the closing parenthesis. -/
def moreParams (ts : List Token) : Except Failure (Parsed (List Identifier) ts) :=
  match ts with
  | ⟨.comma, _, _⟩ :: rest => do
    let ⟨param, rest₁, _⟩ ← name rest
    let ⟨others, rest₂, _⟩ ← moreParams rest₁
    return ⟨param :: others, rest₂, by simp only [List.length_cons]; omega⟩
  | ts => do
    let ⟨_, rest, h⟩ ← expect .rightParen ts
    return ⟨[], rest, h⟩
termination_by ts.length

/-- The parameters of a function and the closing parenthesis, after the opening one. -/
def params (ts : List Token) : Except Failure (Parsed (List Identifier) ts) :=
  match ts with
  | ⟨.rightParen, _, _⟩ :: rest => .ok ⟨[], rest, Nat.lt_succ_self _⟩
  | ts => do
    let ⟨param, rest₁, _⟩ ← name ts
    let ⟨others, rest₂, _⟩ ← moreParams rest₁
    return ⟨param :: others, rest₂, by omega⟩

/-- The semicolon that may end a statement: the statement's span with it, and what follows. -/
def semicolon (span : Span) (ts : List Token) :
    Span × { rest : List Token // rest.length ≤ ts.length } :=
  match ts with
  | ⟨.semicolon, _, stop⟩ :: rest => (span.merge stop, ⟨rest, Nat.le_succ _⟩)
  | ts => (span, ⟨ts, Nat.le_refl _⟩)

mutual

/-- An expression whose operators all bind more tightly than the context. -/
def expression (context : Precedence) (ts : List Token) : Except Failure (Parsed Expr ts) := do
  let ⟨first, rest₁, _⟩ ← operand ts
  let ⟨whole, rest₂, _⟩ ← operators context first rest₁
  return ⟨whole, rest₂, by omega⟩
termination_by (ts.length, 1)

/-- An expression up to its first operator: a name, a constant, an operator in front of an operand,
an expression in parentheses, a conditional or a function. -/
def operand (ts : List Token) : Except Failure (Parsed Expr ts) :=
  match ts with
  | [] => fail .noExpression []
  | ⟨kind, lexeme, span⟩ :: rest =>
    match kind with
    | .identifier => .ok ⟨.identifier ⟨lexeme, span⟩, rest, Nat.lt_succ_self _⟩
    | .int =>
      match Numeral.int64? lexeme with
      | some value => .ok ⟨.literal (.integer value) span, rest, Nat.lt_succ_self _⟩
      | none => fail .outOfRange (⟨kind, lexeme, span⟩ :: rest)
    | .string => .ok ⟨.literal (.string lexeme) span, rest, Nat.lt_succ_self _⟩
    | .trueWord => .ok ⟨.literal (.boolean true) span, rest, Nat.lt_succ_self _⟩
    | .falseWord => .ok ⟨.literal (.boolean false) span, rest, Nat.lt_succ_self _⟩
    | .minus => do
      let ⟨value, rest₁, _⟩ ← expression .unary rest
      return ⟨.unary .negate value (span.merge value.span), rest₁,
        by simp only [List.length_cons]; omega⟩
    | .bang => do
      let ⟨value, rest₁, _⟩ ← expression .unary rest
      return ⟨.unary .not value (span.merge value.span), rest₁,
        by simp only [List.length_cons]; omega⟩
    | .leftParen => do
      let ⟨value, rest₁, _⟩ ← expression .lowest rest
      let ⟨_, rest₂, _⟩ ← expect .rightParen rest₁
      return ⟨value, rest₂, by simp only [List.length_cons]; omega⟩
    | .ifWord => do
      let ⟨_, rest₁, _⟩ ← expect .leftParen rest
      let ⟨condition, rest₂, _⟩ ← expression .lowest rest₁
      let ⟨_, rest₃, _⟩ ← expect .rightParen rest₂
      let ⟨consequence, rest₄, _⟩ ← block rest₃
      let ⟨alternative, rest₅, _⟩ ← otherwise rest₄
      return ⟨.conditional condition consequence alternative
        (span.merge (alternative.getD consequence).span), rest₅,
        by simp only [List.length_cons]; omega⟩
    | .fnWord => do
      let ⟨_, rest₁, _⟩ ← expect .leftParen rest
      let ⟨names, rest₂, _⟩ ← params rest₁
      let ⟨body, rest₃, _⟩ ← block rest₂
      return ⟨.function names body (span.merge body.span), rest₃,
        by simp only [List.length_cons]; omega⟩
    | .illegal => fail .illegal (⟨kind, lexeme, span⟩ :: rest)
    | _ => fail .noExpression (⟨kind, lexeme, span⟩ :: rest)
termination_by (ts.length, 0)

/-- An expression that begins with `left`, as far as its operators and calls bind more tightly than
the context. -/
def operators (context : Precedence) (left : Expr) (ts : List Token) :
    Except Failure (Extended Expr ts) :=
  match ts with
  | [] => .ok ⟨left, [], Nat.le_refl _⟩
  | ⟨kind, lexeme, span⟩ :: rest =>
    match InfixOp.ofKind? kind with
    | some op =>
      if context < op.precedence then do
        let ⟨right, rest₁, _⟩ ← expression op.precedence rest
        let ⟨whole, rest₂, _⟩ ←
          operators context (.binary op left right (left.span.merge right.span)) rest₁
        return ⟨whole, rest₂, by simp only [List.length_cons]; omega⟩
      else .ok ⟨left, ⟨kind, lexeme, span⟩ :: rest, Nat.le_refl _⟩
    | none =>
      if kind = .leftParen ∧ context < .call then do
        let ⟨(args, stop), rest₁, _⟩ ← arguments rest
        let ⟨whole, rest₂, _⟩ ←
          operators context (.call left args (left.span.merge stop)) rest₁
        return ⟨whole, rest₂, by simp only [List.length_cons]; omega⟩
      else .ok ⟨left, ⟨kind, lexeme, span⟩ :: rest, Nat.le_refl _⟩
termination_by (ts.length, 0)

/-- The arguments of a call and the span of the closing parenthesis, after the opening one. -/
def arguments (ts : List Token) : Except Failure (Parsed (List Expr × Span) ts) :=
  match ts with
  | ⟨.rightParen, _, span⟩ :: rest => .ok ⟨([], span), rest, Nat.lt_succ_self _⟩
  | ts => do
    let ⟨first, rest₁, _⟩ ← expression .lowest ts
    let ⟨(others, span), rest₂, _⟩ ← moreArguments rest₁
    return ⟨(first :: others, span), rest₂, by omega⟩
termination_by (ts.length, 2)

/-- The arguments after one of them, each behind a comma, and the span of the closing
parenthesis. -/
def moreArguments (ts : List Token) : Except Failure (Parsed (List Expr × Span) ts) :=
  match ts with
  | ⟨.comma, _, _⟩ :: rest => do
    let ⟨next, rest₁, _⟩ ← expression .lowest rest
    let ⟨(others, span), rest₂, _⟩ ← moreArguments rest₁
    return ⟨(next :: others, span), rest₂, by simp only [List.length_cons]; omega⟩
  | ts => do
    let ⟨t, rest, h⟩ ← expect .rightParen ts
    return ⟨([], t.span), rest, h⟩
termination_by (ts.length, 0)

/-- The statements between two braces. -/
def block (ts : List Token) : Except Failure (Parsed Block ts) := do
  let ⟨start, rest₁, _⟩ ← expect .leftBrace ts
  let ⟨(statements, stop), rest₂, _⟩ ← body rest₁
  return ⟨⟨statements, start.span.merge stop⟩, rest₂, by omega⟩
termination_by (ts.length, 0)

/-- The alternative of a conditional, if there is one. -/
def otherwise (ts : List Token) : Except Failure (Extended (Option Block) ts) :=
  match ts with
  | ⟨.elseWord, _, _⟩ :: rest => do
    let ⟨alternative, rest₁, _⟩ ← block rest
    return ⟨some alternative, rest₁, by simp only [List.length_cons]; omega⟩
  | ts => .ok ⟨none, ts, Nat.le_refl _⟩
termination_by (ts.length, 1)

/-- The statements of a block and the span of the closing brace. -/
def body (ts : List Token) : Except Failure (Parsed (List Stmt × Span) ts) :=
  match ts with
  | [] => fail (.missing .rightBrace) []
  | ⟨.rightBrace, _, span⟩ :: rest => .ok ⟨([], span), rest, Nat.lt_succ_self _⟩
  | t :: ts => do
    let ⟨first, rest₁, _⟩ ← statement (t :: ts)
    let ⟨(others, span), rest₂, _⟩ ← body rest₁
    return ⟨(first :: others, span), rest₂, by omega⟩
termination_by (ts.length, 3)

/-- A statement with the semicolon that may end it. -/
def statement (ts : List Token) : Except Failure (Parsed Stmt ts) :=
  match ts with
  | ⟨.letWord, _, start⟩ :: rest => do
    let ⟨bound, rest₁, _⟩ ← name rest
    let ⟨_, rest₂, _⟩ ← expect .assign rest₁
    let ⟨value, rest₃, _⟩ ← expression .lowest rest₂
    let (span, ⟨rest₄, _⟩) := semicolon (start.merge value.span) rest₃
    return ⟨.letStmt bound value span, rest₄, by simp only [List.length_cons]; omega⟩
  | ⟨.returnWord, _, start⟩ :: rest => do
    let ⟨value, rest₁, _⟩ ← expression .lowest rest
    let (span, ⟨rest₂, _⟩) := semicolon (start.merge value.span) rest₁
    return ⟨.returnStmt value span, rest₂, by simp only [List.length_cons]; omega⟩
  | ts => do
    let ⟨value, rest₁, _⟩ ← expression .lowest ts
    let (span, ⟨rest₂, _⟩) := semicolon value.span rest₁
    return ⟨.exprStmt value span, rest₂, by omega⟩
termination_by (ts.length, 2)

end

/-- How many braces are open after a token, if `depth` were before it. -/
def braceDepth (depth : Nat) (t : Token) : Nat :=
  match t.kind with
  | .leftBrace => depth + 1
  | .rightBrace => depth - 1
  | _ => depth

/-- Skips tokens until a statement may begin outside all braces: behind a semicolon or before a
keyword of a statement. `last` has been skipped already, with `depth` braces open before it. -/
def skip (depth : Nat) (last : Token) : List Token → List Token
  | [] => []
  | t :: ts =>
    if last.kind = .semicolon ∧ depth = 0 then t :: ts
    else if braceDepth depth last = 0 ∧ (t.kind = .letWord ∨ t.kind = .returnWord) then t :: ts
    else skip (braceDepth depth last) t ts

/-- The tokens to go on with after a statement at the front of `ts` broke off with `left` tokens
left: at least the token at fault is skipped, and the braces that the statement had opened count. -/
def resume (ts : List Token) (left : Nat) : List Token :=
  match ts.drop (ts.length - left) with
  | [] => []
  | t :: rest => skip ((ts.take (ts.length - left)).foldl braceDepth 0) t rest

/-- Skipping leaves no more tokens. -/
theorem skip_length_le (depth : Nat) (last : Token) (ts : List Token) :
    (skip depth last ts).length ≤ ts.length := by
  induction ts generalizing depth last with
  | nil => simp [skip]
  | cons t ts ih =>
    unfold skip
    split
    · exact Nat.le_refl _
    · split
      · exact Nat.le_refl _
      · exact Nat.le_succ_of_le (ih _ _)

/-- Something is skipped whenever something is left. -/
theorem resume_length_lt {ts : List Token} (h : ts ≠ []) (left : Nat) :
    (resume ts left).length < ts.length := by
  have bound : (ts.drop (ts.length - left)).length ≤ ts.length := by simp
  unfold resume
  split
  · exact List.length_pos_iff.2 h
  · rename_i t rest eq
    rw [eq] at bound
    exact Nat.lt_of_le_of_lt (skip_length_le _ _ _) bound

/-- The segments of a text in order: the statements it reads as, and a diagnostic in place of each
one that broke off. `stop` is the marker at the text's end. -/
def segments (stop : Token) (ts : List Token) : List (Except Diagnostic Stmt) :=
  match ts with
  | [] => []
  | t :: rest =>
    match statement (t :: rest) with
    | .ok ⟨stmt, rest', _⟩ => .ok stmt :: segments stop rest'
    | .error ⟨fault, left⟩ =>
      let found := ((t :: rest).drop ((t :: rest).length - left)).headD stop
      have : (resume (t :: rest) left).length < (t :: rest).length :=
        resume_length_lt (List.cons_ne_nil _ _) left
      .error (fault.diagnostic found) :: segments stop (resume (t :: rest) left)
termination_by ts.length
decreasing_by all_goals assumption

end Parser

/-- What reading a text gives: the statements that could be read, and a diagnostic for each that
could not, both in order. -/
structure Reading where
  program : Program
  diagnostics : List Diagnostic

namespace Reading

/-- The statements and the diagnostics among the segments of a text. -/
def ofSegments (segments : List (Except Diagnostic Stmt)) : Reading where
  program := ⟨segments.filterMap fun
    | .ok stmt => some stmt
    | .error _ => none⟩
  diagnostics := segments.filterMap fun
    | .ok _ => none
    | .error d => some d

end Reading

/-- Tokens up to the first end marker, and that marker; if the list does not end with one, it is
taken to stand right after the last token. -/
def Token.untilEof (ts : List Token) : List Token × Token :=
  let before := ts.takeWhile (·.kind ≠ .eof)
  match ts.drop before.length with
  | marker :: _ => (before, marker)
  | [] => (before, .eof ((ts.getLast?.map (·.span.stop)).getD 0))

/-- Reads a program from tokens. -/
def Reading.ofTokens (ts : List Token) : Reading :=
  let (before, marker) := Token.untilEof ts
  .ofSegments (Parser.segments marker before)

end Monkey
