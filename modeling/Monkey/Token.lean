import Monkey.Span

/-!
# Tokens

A token is a kind, the text it was read from, and where it stood. Words that are keywords have a
kind of their own; a stretch of text that belongs to no class is a token of kind `illegal`.
-/

namespace Monkey

/-- The classes of token. -/
inductive TokenKind where
  | identifier
  | int
  | string
  | trueWord
  | falseWord
  | letWord
  | returnWord
  | ifWord
  | elseWord
  | fnWord
  | assign
  | plus
  | minus
  | star
  | slash
  | bang
  | less
  | greater
  | equalEqual
  | bangEqual
  | leftParen
  | rightParen
  | leftBrace
  | rightBrace
  | comma
  | semicolon
  | eof
  | illegal
deriving DecidableEq, Repr, Inhabited

namespace TokenKind

/-- How messages name a kind: its own text if it has only one, else what it is. -/
def text : TokenKind → String
  | .identifier => "identifier"
  | .int => "integer"
  | .string => "string"
  | .trueWord => "true"
  | .falseWord => "false"
  | .letWord => "let"
  | .returnWord => "return"
  | .ifWord => "if"
  | .elseWord => "else"
  | .fnWord => "fn"
  | .assign => "="
  | .plus => "+"
  | .minus => "-"
  | .star => "*"
  | .slash => "/"
  | .bang => "!"
  | .less => "<"
  | .greater => ">"
  | .equalEqual => "=="
  | .bangEqual => "!="
  | .leftParen => "("
  | .rightParen => ")"
  | .leftBrace => "\x7b"
  | .rightBrace => "\x7d"
  | .comma => ","
  | .semicolon => ";"
  | .eof => "EOF"
  | .illegal => "illegal"

/-- The kind of a keyword; `none` for every other text. -/
def ofKeyword? (word : String) : Option TokenKind :=
  match word with
  | "let" => some .letWord
  | "return" => some .returnWord
  | "if" => some .ifWord
  | "else" => some .elseWord
  | "fn" => some .fnWord
  | "true" => some .trueWord
  | "false" => some .falseWord
  | _ => none

/-- The kind of a word: a keyword's own kind, else `identifier`. -/
def ofWord (word : String) : TokenKind := (ofKeyword? word).getD .identifier

end TokenKind

/-- A located token. The lexeme of a string leaves out its quotes; its span does not. -/
structure Token where
  kind : TokenKind
  lexeme : String
  span : Span
deriving DecidableEq, Repr, Inhabited

namespace Token

/-- The marker that ends a text of `offset` characters. -/
def eof (offset : Nat) : Token := ⟨.eof, "", ⟨offset, offset⟩⟩

/-- How a message names the token it met. -/
def description (t : Token) : String :=
  match t.kind with
  | .eof => "EOF"
  | _ => t.lexeme

end Token

end Monkey
