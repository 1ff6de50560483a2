import Monkey.Token

/-!
# Scanning

A cursor is what is left of a source text, with the offset it starts at. Scanning is a function on
cursors: it skips trivia (blanks and comments), then splits off the longest token. It never fails,
because a character that starts no token is a token of kind `illegal`. Main statements:
`next?_rest_lt`, every token takes a character off the text, so that scanning ends; and
`next?_eq_none_iff`, there is a token exactly as long as something but trivia is left.
-/

namespace Monkey

/-- The rest of a source text and the offset of its first character. -/
structure Cursor where
  offset : Nat
  rest : List Char
deriving DecidableEq, Repr

/-- A token just split off: its kind and lexeme, how many characters it took, and what it left. -/
structure Lexeme where
  kind : TokenKind
  text : String
  width : Nat
  rest : List Char

namespace Cursor

/-- The cursor at the start of a source. -/
def ofSource (source : String) : Cursor := ⟨0, source.toList⟩

/-- The characters between tokens. -/
def isSpace (c : Char) : Bool := c == ' ' || c == '\t' || c == '\r' || c == '\n'

/-- The characters that begin a word: ASCII letters and the underscore. -/
def startsWord (c : Char) : Bool := c.isAlpha || c == '_'

/-- The characters that continue a word: those that begin one and ASCII digits. -/
def continuesWord (c : Char) : Bool := c.isAlphanum || c == '_'

/-- Skips trivia; inside a comment everything up to the next line is trivia. -/
def skipTrivia (inComment : Bool) (offset : Nat) : List Char → Cursor
  | [] => ⟨offset, []⟩
  | c :: cs =>
    if inComment then skipTrivia (c != '\n') (offset + 1) cs
    else if isSpace c then skipTrivia false (offset + 1) cs
    else if c = '/' ∧ cs.head? = some '/' then skipTrivia true (offset + 1) cs
    else ⟨offset, c :: cs⟩

/-- The cursor at the first character that is not trivia. -/
def afterTrivia (c : Cursor) : Cursor := skipTrivia false c.offset c.rest

/-- The kind of a token that is one given character. -/
def punctuation? : Char → Option TokenKind
  | '(' => some .leftParen
  | ')' => some .rightParen
  | '\x7b' => some .leftBrace
  | '\x7d' => some .rightBrace
  | ',' => some .comma
  | ';' => some .semicolon
  | '+' => some .plus
  | '-' => some .minus
  | '*' => some .star
  | '/' => some .slash
  | '<' => some .less
  | '>' => some .greater
  | '=' => some .assign
  | '!' => some .bang
  | _ => none

/-- The rest of a string whose opening quote has been read. Without a closing quote the whole text
from the opening quote on is illegal. -/
def string (cs : List Char) : Lexeme :=
  let body := cs.takeWhile (· != '"')
  match cs.dropWhile (· != '"') with
  | [] => ⟨.illegal, String.ofList ('"' :: body), body.length + 1, []⟩
  | _ :: rest => ⟨.string, String.ofList body, body.length + 2, rest⟩

/-- The longest token that starts with `c`, where `cs` follows. -/
def lexeme (c : Char) (cs : List Char) : Lexeme :=
  if c = '"' then string cs
  else if c.isDigit then
    let digits := c :: cs.takeWhile Char.isDigit
    ⟨.int, String.ofList digits, digits.length, cs.dropWhile Char.isDigit⟩
  else if startsWord c then
    let word := c :: cs.takeWhile continuesWord
    ⟨.ofWord (String.ofList word), String.ofList word, word.length, cs.dropWhile continuesWord⟩
  else
    match c, cs with
    | '=', '=' :: rest => ⟨.equalEqual, "==", 2, rest⟩
    | '!', '=' :: rest => ⟨.bangEqual, "!=", 2, rest⟩
    | c, cs => ⟨(punctuation? c).getD .illegal, String.singleton c, 1, cs⟩

/-- The next token and the cursor after it; `none` if only trivia is left. -/
def next? (c : Cursor) : Option (Token × Cursor) :=
  match c.afterTrivia with
  | ⟨_, []⟩ => none
  | ⟨start, first :: cs⟩ =>
    let l := lexeme first cs
    some (⟨l.kind, l.text, ⟨start, start + l.width⟩⟩, ⟨start + l.width, l.rest⟩)

/-- The next token, which is the end marker, over and over, once only trivia is left. -/
def next (c : Cursor) : Token × Cursor :=
  match c.next? with
  | some r => r
  | none => (.eof c.afterTrivia.offset, c.afterTrivia)

/-- Dropping characters leaves no more. -/
theorem dropWhile_length_le (p : Char → Bool) (cs : List Char) :
    (cs.dropWhile p).length ≤ cs.length :=
  (List.dropWhile_suffix p).length_le

/-- A lexeme leaves no more text than stands behind its first character. -/
theorem lexeme_rest_length_le (c : Char) (cs : List Char) :
    (lexeme c cs).rest.length ≤ cs.length := by
  unfold lexeme
  split
  · have h := dropWhile_length_le (· != '"') cs
    unfold string
    split
    · exact Nat.zero_le _
    · rename_i rest eq
      rw [eq] at h
      exact Nat.le_of_succ_le h
  · split
    · exact dropWhile_length_le _ _
    · split
      · exact dropWhile_length_le _ _
      · split <;> simp

/-- Skipping trivia leaves no more text. -/
theorem skipTrivia_rest_length_le (inComment : Bool) (offset : Nat) (cs : List Char) :
    (skipTrivia inComment offset cs).rest.length ≤ cs.length := by
  induction cs generalizing inComment offset with
  | nil => simp [skipTrivia]
  | cons c cs ih =>
    unfold skipTrivia
    split
    · exact Nat.le_succ_of_le (ih _ _)
    · split
      · exact Nat.le_succ_of_le (ih _ _)
      · split
        · exact Nat.le_succ_of_le (ih _ _)
        · exact Nat.le_refl _

/-- A token takes at least one character off the text. -/
theorem next?_rest_lt {c c' : Cursor} {t : Token} (h : c.next? = some (t, c')) :
    c'.rest.length < c.rest.length := by
  have skipped := skipTrivia_rest_length_le false c.offset c.rest
  unfold next? at h
  split at h
  · cases h
  · rename_i start first cs eq
    simp only [afterTrivia] at eq
    rw [eq] at skipped
    have scanned := lexeme_rest_length_le first cs
    simp only [Option.some.injEq, Prod.mk.injEq] at h
    obtain ⟨_, rfl⟩ := h
    simp only [List.length_cons] at skipped ⊢
    omega

/-- There is no further token exactly when nothing but trivia is left. -/
theorem next?_eq_none_iff {c : Cursor} : c.next? = none ↔ c.afterTrivia.rest = [] := by
  unfold next?
  split
  · rename_i h
    simp [h]
  · rename_i h
    simp [h]

/-- The tokens of the text, without an end marker. -/
def tokens (c : Cursor) : List Token :=
  match h : c.next? with
  | none => []
  | some (t, c') =>
    have : c'.rest.length < c.rest.length := next?_rest_lt h
    t :: c'.tokens
termination_by c.rest.length

/-- The first `count` tokens, where the end marker repeats for as long as it takes. -/
def take (c : Cursor) : Nat → List Token
  | 0 => []
  | count + 1 => c.next.1 :: c.next.2.take count

end Cursor

namespace Token

/-- The tokens of a source, closed by the marker at its end. -/
def ofSource (source : String) : List Token :=
  (Cursor.ofSource source).tokens ++ [.eof source.length]

end Token

end Monkey
