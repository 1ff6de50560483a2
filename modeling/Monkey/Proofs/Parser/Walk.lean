import Monkey.Syntax.Parser
import Mathlib.Tactic.Lemma

/-!
# Reading along a position

The reader of programs as it walks along the tokens: it keeps the place of the token it looks at,
the place where the statement began, and the diagnostics so far; it is made of loops, and nothing
but fuel bounds how often they run. A look at a token asks for it by its place, and there may be no
token at it. Each step forward is noted, so that what is said about the way holds at every step.
-/

namespace Monkey

/-- Where a walk stands: the place of the next token, and of the first token of the statement. -/
structure Standing where
  current : Nat
  start : Nat

/-- The state of a walk: where it stands, all places where it stood, and what it has reported. -/
structure Walker extends Standing where
  trail : List Standing
  diagnostics : List Diagnostic

/-- Where a walk begins. -/
def Walker.initial : Walker := ⟨⟨0, 0⟩, [⟨0, 0⟩], []⟩

/-- Why a walk stops. -/
inductive Halt where
  /-- A statement breaks off; its fault has been reported. -/
  | broken
  /-- There is no token at the place that was looked at. -/
  | outside

/-- A walk along tokens: it may stop, or go on for longer than its fuel lasts, which is the value
`none`. -/
abbrev Walk := ExceptT Halt (StateT Walker Option)

namespace Walk

/-- Goes to a place, which is noted. -/
def goTo (place : Standing) : Walk Unit :=
  modify fun w => { w with toStanding := place, trail := place :: w.trail }

/-- A walk that goes on. -/
def onward {α : Type} : Walk α := fun _ => none

variable (tokens : List Token)

/-! ## Single tokens -/

/-- The token at a place. -/
def token (i : Nat) : Walk Token :=
  match tokens[i]? with
  | some t => pure t
  | none => throw .outside

/-- The next token. -/
def peek : Walk Token := do
  token tokens (← get).current

/-- Whether the next token is the marker of the end. -/
def isAtEnd : Walk Bool := do
  return (← peek tokens).kind = .eof

/-- Steps over the next token, unless it is the marker of the end, and gives the last token that was
stepped over. -/
def advance : Walk Token := do
  unless ← isAtEnd tokens do
    let place := (← get).toStanding
    goTo { place with current := place.current + 1 }
  token tokens ((← get).current - 1)

/-- Whether the next token is of a kind. -/
def check (kind : TokenKind) : Walk Bool := do
  if ← isAtEnd tokens then return false else return (← peek tokens).kind = kind

/-- Steps over the next token if it is of a kind. -/
def accept (kind : TokenKind) : Walk Bool := do
  if ← check tokens kind then
    let _ ← advance tokens
    return true
  else
    return false

/-- Reports a fault at the next token, and breaks off. -/
def breakOff {α : Type} (fault : Fault) : Walk α := do
  let found ← peek tokens
  modify fun w => { w with diagnostics := w.diagnostics ++ [fault.diagnostic found] }
  throw .broken

/-- Steps over the next token, which has to be of a kind. -/
def consume (kind : TokenKind) : Walk Token := do
  if ← check tokens kind then advance tokens else breakOff tokens (.missing kind)

/-- A name. -/
def name : Walk Identifier := do
  let t ← consume tokens .identifier
  return ⟨t.lexeme, t.span⟩

/-- A statement with the semicolon that may end it. -/
def ended (make : Span → Stmt) (span : Span) : Walk Stmt := do
  if ← check tokens .semicolon then
    let t ← advance tokens
    return make (span.merge t.span)
  else
    return make span

/-! ## Parameters -/

/-- A parameter, and whether another one follows. -/
def param : Walk (Identifier × Bool) := do
  let x ← name tokens
  return (x, ← accept tokens .comma)

/-- Parameters, at least one. -/
def moreParams : Nat → Walk (List Identifier)
  | 0 => onward
  | fuel + 1 => do
    let (x, more) ← param tokens
    if more then
      return x :: (← moreParams fuel)
    else
      return [x]

/-- The parameters of a function, after the opening parenthesis. -/
def params (fuel : Nat) : Walk (List Identifier) := do
  if ← check tokens .rightParen then return [] else moreParams tokens fuel

/-! ## Expressions and statements -/

/-- How tightly the next token binds behind an expression. -/
def precedence (kind : TokenKind) : Precedence :=
  match kind with
  | .equalEqual | .bangEqual => .equality
  | .less | .greater => .comparison
  | .plus | .minus => .sum
  | .star | .slash => .product
  | .leftParen => .call
  | _ => .lowest

/-- The operator of a token that binds behind an expression. -/
def infixOp (kind : TokenKind) : InfixOp :=
  match kind with
  | .plus => .add
  | .minus => .sub
  | .star => .mul
  | .slash => .div
  | .less => .lt
  | .greater => .gt
  | .equalEqual => .eq
  | _ => .ne

/-- An integer, which has to fit into 64 bits. -/
def integer : Walk Expr := do
  let t ← peek tokens
  match Numeral.int64? t.lexeme with
  | some value =>
    let _ ← advance tokens
    return .literal (.integer value) t.span
  | none => breakOff tokens .outOfRange

mutual

/-- An expression whose operators all bind more tightly than the context. -/
def expression : Nat → Precedence → Walk Expr
  | 0, _ => onward
  | fuel + 1, context => do operators fuel context (← operand fuel)

/-- An expression up to its first operator. -/
def operand : Nat → Walk Expr
  | 0 => onward
  | fuel + 1 => do
    match (← peek tokens).kind with
    | .identifier => do
      let t ← advance tokens
      return .identifier ⟨t.lexeme, t.span⟩
    | .int => integer tokens
    | .string => do
      let t ← advance tokens
      return .literal (.string t.lexeme) t.span
    | .trueWord | .falseWord => do
      let t ← advance tokens
      return .literal (.boolean (t.kind = .trueWord)) t.span
    | .bang | .minus => do
      let t ← advance tokens
      let value ← expression fuel .unary
      return .unary (if t.kind = .minus then .negate else .not) value (t.span.merge value.span)
    | .leftParen => do
      let _ ← consume tokens .leftParen
      let value ← expression fuel .lowest
      let _ ← consume tokens .rightParen
      return value
    | .ifWord => do
      let start ← consume tokens .ifWord
      let _ ← consume tokens .leftParen
      let condition ← expression fuel .lowest
      let _ ← consume tokens .rightParen
      let consequence ← block fuel
      let alternative ← otherwise fuel
      return .conditional condition consequence alternative
        (start.span.merge (alternative.getD consequence).span)
    | .fnWord => do
      let start ← consume tokens .fnWord
      let _ ← consume tokens .leftParen
      let xs ← params tokens fuel
      let _ ← consume tokens .rightParen
      let body ← block fuel
      return .function xs body (start.span.merge body.span)
    | .illegal => breakOff tokens .illegal
    | _ => breakOff tokens .noExpression

/-- The operators and calls behind an expression that bind more tightly than the context. -/
def operators : Nat → Precedence → Expr → Walk Expr
  | 0, _, _ => onward
  | fuel + 1, context, left => do
    if ← check tokens .semicolon then
      return left
    else if context < precedence (← peek tokens).kind then
      operators fuel context (← operator fuel left)
    else
      return left

/-- An operator with its right operand, or a call, behind an expression. -/
def operator : Nat → Expr → Walk Expr
  | 0, _ => onward
  | fuel + 1, left => do
    match (← peek tokens).kind with
    | .leftParen => do
      let _ ← consume tokens .leftParen
      let args ← arguments fuel
      let stop ← consume tokens .rightParen
      return .call left args (left.span.merge stop.span)
    | kind => do
      let t ← advance tokens
      let right ← expression fuel (precedence kind)
      return .binary (infixOp t.kind) left right (left.span.merge right.span)

/-- The arguments of a call, after the opening parenthesis. -/
def arguments : Nat → Walk (List Expr)
  | 0 => onward
  | fuel + 1 => do
    if ← check tokens .rightParen then return [] else moreArguments fuel

/-- Arguments, at least one. -/
def moreArguments : Nat → Walk (List Expr)
  | 0 => onward
  | fuel + 1 => do
    let (e, more) ← argument fuel
    if more then
      return e :: (← moreArguments fuel)
    else
      return [e]

/-- An argument, and whether another one follows. -/
def argument : Nat → Walk (Expr × Bool)
  | 0 => onward
  | fuel + 1 => do
    let e ← expression fuel .lowest
    return (e, ← accept tokens .comma)

/-- The statements between two braces. -/
def block : Nat → Walk Block
  | 0 => onward
  | fuel + 1 => do
    let start ← consume tokens .leftBrace
    let statements ← body fuel
    let stop ← consume tokens .rightBrace
    return ⟨statements, start.span.merge stop.span⟩

/-- The alternative of a conditional, if there is one. -/
def otherwise : Nat → Walk (Option Block)
  | 0 => onward
  | fuel + 1 => do
    if ← accept tokens .elseWord then return some (← block fuel) else return none

/-- The statements up to a closing brace or the end. -/
def body : Nat → Walk (List Stmt)
  | 0 => onward
  | fuel + 1 => do
    if ← check tokens .rightBrace then
      return []
    else if ← isAtEnd tokens then
      return []
    else
      let s ← statement fuel
      return s :: (← body fuel)

/-- A statement with the semicolon that may end it. -/
def statement : Nat → Walk Stmt
  | 0 => onward
  | fuel + 1 => do
    match (← peek tokens).kind with
    | .letWord => do
      let start ← consume tokens .letWord
      let x ← name tokens
      let _ ← consume tokens .assign
      let value ← expression fuel .lowest
      ended tokens (.letStmt x value) (start.span.merge value.span)
    | .returnWord => do
      let start ← consume tokens .returnWord
      let value ← expression fuel .lowest
      ended tokens (.returnStmt value) (start.span.merge value.span)
    | _ => do
      let value ← expression fuel .lowest
      ended tokens (.exprStmt value) value.span

end

/-! ## Programs -/

/-- The tokens from one place to another. -/
def slice (i j : Nat) : Walk (List Token) :=
  if i ≤ j ∧ j ≤ tokens.length then pure ((tokens.drop i).take (j - i)) else throw .outside

/-- The token before the next one. -/
def previous : Walk Token := do
  match (← get).current with
  | 0 => throw .outside
  | i + 1 => token tokens i

/-- Steps on until a statement may begin outside all braces, of which `depth` are open before the
last token. -/
def skip : Nat → (depth : Nat) → Walk Unit
  | 0, _ => onward
  | fuel + 1, depth => do
    if ← isAtEnd tokens then
      return
    else
      let last ← previous tokens
      if last.kind = .semicolon ∧ depth = 0 then
        return
      else
        let kind := (← peek tokens).kind
        if Parser.braceDepth depth last = 0 ∧ (kind = .letWord ∨ kind = .returnWord) then
          return
        else
          let _ ← advance tokens
          skip fuel (Parser.braceDepth depth last)

/-- Goes on behind a statement that broke off. -/
def synchronize (fuel : Nat) : Walk Unit := do
  let place := (← get).toStanding
  let passed ← slice tokens place.start place.current
  let _ ← advance tokens
  skip tokens fuel (passed.foldl Parser.braceDepth 0)

/-- A walk that goes on when a statement breaks off. -/
def attempt {α : Type} (x : Walk α) : Walk (Option α) := fun w => do
  match ← x w with
  | (.error .broken, w) => return (.ok none, w)
  | (.error .outside, w) => return (.error .outside, w)
  | (.ok a, w) => return (.ok (some a), w)

/-- A statement of a program, or what is skipped in its place. -/
def segment (fuel : Nat) : Walk (Option Stmt) := do
  let place := (← get).toStanding
  goTo { place with start := place.current }
  match ← attempt (statement tokens fuel) with
  | some s => return some s
  | none => do
    synchronize tokens fuel
    return none

/-- The statements of a program. -/
def program : Nat → Walk (List Stmt)
  | 0 => onward
  | fuel + 1 => do
    if ← isAtEnd tokens then
      return []
    else
      let s ← segment tokens fuel
      return s.toList ++ (← program fuel)

end Walk

/-- The tokens with a marker of the end behind them, if there is none. -/
def Token.marked (ts : List Token) : List Token :=
  match ts.getLast? with
  | some t => if t.kind = .eof then ts else ts ++ [.eof t.span.stop]
  | none => [.eof 0]

/-- The place of the first marker of the end. -/
def Token.eofPlace (ts : List Token) : Nat := (Token.marked ts).findIdx (·.kind = .eof)

/-- The tokens up to the first marker of the end, and the marker. -/
def Token.upToEof (ts : List Token) : List Token := (Token.marked ts).take (Token.eofPlace ts + 1)

end Monkey
