import Monkey.Proofs.Syntax.Shape
import Monkey.Proofs.Text.Stops

/-!
# Scanning by equations

What the scanner makes of the front of a text, by the form of the front: a blank is left out, a
word, a numeral, a quoted string or a mark is split off. The text behind matters only as far as it
may go on with the token. Offsets bear on nothing but spans, so that a text can be scanned piece by
piece; `Token.scan` leaves the spans out. Main statements: `Cursor.tokens_of_lexeme` and
`Cursor.shape_tokens`.
-/

namespace Monkey

open Text

namespace Cursor

/-- The character begins a comment or trivia, if these characters follow. -/
def IsTrivial (c : Char) (cs : List Char) : Prop := isSpace c ∨ c = '/' ∧ cs.head? = some '/'

/-- The characters that trivia begins with. -/
lemma IsTrivial.mem {c : Char} {cs : List Char} (h : IsTrivial c cs) :
    c ∈ [' ', '\t', '\r', '\n', '/'] := by
  rcases h with space | ⟨rfl, _⟩
  · simp only [isSpace, Bool.or_eq_true, beq_iff_eq] at space
    rcases space with ((rfl | rfl) | rfl) | rfl <;> decide
  · decide

/-- A character that is a token of its own begins no other lexeme and no space. -/
lemma of_punctuation? {c : Char} (h : (punctuation? c).isSome) :
    isSpace c = false ∧ c ≠ '"' ∧ c.isDigit = false ∧ startsWord c = false := by
  unfold punctuation? at h
  split at h
  all_goals first | decide | cases h

/-- A digit may go on with a word. -/
lemma continuesWord_of_isDigit {c : Char} (h : c.isDigit) : continuesWord c := by
  simp [continuesWord, Char.isAlphanum, h]

/-- What may begin a word may go on with it. -/
lemma continuesWord_of_startsWord {c : Char} (h : startsWord c) : continuesWord c := by
  simp only [startsWord, continuesWord, Char.isAlphanum, Bool.or_eq_true] at h ⊢
  rcases h with h | h
  · exact .inl (.inl h)
  · exact .inr h

/-- Trivia go on with no word. -/
lemma IsTrivial.not_continuesWord {c : Char} {cs : List Char} (h : IsTrivial c cs) :
    continuesWord c = false := by
  have mem := h.mem
  simp only [List.mem_cons, List.not_mem_nil, or_false] at mem
  rcases mem with rfl | rfl | rfl | rfl | rfl <;> rfl

/-- No digit begins a word. -/
lemma not_isDigit_of_startsWord {c : Char} (start : startsWord c) : c.isDigit = false := by
  rw [Bool.eq_false_iff]
  intro digit
  unfold startsWord Char.isAlpha Char.isUpper Char.isLower at start
  simp only [Char.isDigit, Bool.or_eq_true, Bool.and_eq_true, decide_eq_true_eq, beq_iff_eq,
    UInt32.le_iff_toNat_le] at start digit
  rcases start with (upper | lower) | rfl
  · simp at upper digit
    omega
  · simp at lower digit
    omega
  · simp at digit

section Lexeme

variable {c : Char} {cs rest : List Char}

/-- A word ends where the text does not continue it. -/
lemma lexeme_word (start : startsWord c) (more : ∀ c ∈ cs, continuesWord c)
    (stops : Stops continuesWord rest) :
    lexeme c (cs ++ rest) =
      ⟨.ofWord (String.ofList (c :: cs)), String.ofList (c :: cs), cs.length + 1, rest⟩ := by
  have noQuote : c ≠ '"' := by
    rintro rfl
    cases start
  simp only [lexeme, if_neg noQuote, not_isDigit_of_startsWord start, Bool.false_eq_true, if_false,
    if_pos start, takeWhile_append_of_stops more stops, dropWhile_append_of_stops more stops,
    List.length_cons]

/-- A numeral ends where no digit follows. -/
lemma lexeme_digits (digit : c.isDigit) (more : ∀ c ∈ cs, c.isDigit)
    (stops : Stops Char.isDigit rest) :
    lexeme c (cs ++ rest) = ⟨.int, String.ofList (c :: cs), cs.length + 1, rest⟩ := by
  have noQuote : c ≠ '"' := by
    rintro rfl
    cases digit
  simp only [lexeme, if_neg noQuote, if_pos digit, takeWhile_append_of_stops more stops,
    dropWhile_append_of_stops more stops, List.length_cons]

/-- A string ends at the next quote, whatever follows. -/
lemma lexeme_quoted (noQuote : '"' ∉ cs) :
    lexeme '"' (cs ++ '"' :: rest) = ⟨.string, String.ofList cs, cs.length + 2, rest⟩ := by
  have all : ∀ c ∈ cs, (c != '"') = true := by
    intro c mem
    simp only [bne_iff_ne]
    rintro rfl
    exact noQuote mem
  have stops : Stops (· != '"') ('"' :: rest) := stops_cons.2 rfl
  simp only [lexeme, if_true, string, takeWhile_append_of_stops all stops,
    dropWhile_append_of_stops all stops]

/-- A character that begins nothing longer is a token for itself. -/
lemma lexeme_single (noQuote : c ≠ '"') (noDigit : c.isDigit = false)
    (noWord : startsWord c = false) (alone : c = '=' ∨ c = '!' → cs.head? ≠ some '=') :
    lexeme c cs = ⟨(punctuation? c).getD .illegal, String.singleton c, 1, cs⟩ := by
  simp only [lexeme, if_neg noQuote, noDigit, noWord, Bool.false_eq_true, if_false]
  split
  · exact absurd rfl (alone (.inl rfl))
  · exact absurd rfl (alone (.inr rfl))
  · rfl

end Lexeme

section Tokens

variable {n : Nat} {c : Char} {cs : List Char}

/-- The token that is next comes before those behind it. -/
lemma tokens_of_next? {c c' : Cursor} {t : Token} (h : c.next? = some (t, c')) :
    c.tokens = t :: c'.tokens := by
  rw [tokens]
  split
  · rename_i none
    rw [none] at h
    cases h
  · rename_i some
    rw [some] at h
    cases h
    rfl

/-- Where no token is next there are none. -/
lemma tokens_of_none {c : Cursor} (h : c.next? = none) : c.tokens = [] := by
  rw [tokens]
  split
  · rfl
  · rename_i some
    rw [some] at h
    cases h

/-- There are no tokens in an empty text. -/
@[simp] lemma tokens_nil : tokens ⟨n, []⟩ = [] := tokens_of_none rfl

/-- A blank is left out. -/
lemma tokens_space (space : isSpace c) : tokens ⟨n, c :: cs⟩ = tokens ⟨n + 1, cs⟩ := by
  have same : next? ⟨n, c :: cs⟩ = next? ⟨n + 1, cs⟩ := by
    simp [next?, afterTrivia, skipTrivia, space]
  cases first : next? ⟨n + 1, cs⟩ with
  | none => rw [tokens_of_none first, tokens_of_none (same.trans first)]
  | some r => rw [tokens_of_next? first, tokens_of_next? (same.trans first)]

/-- Where no trivia stands, the longest token is split off. -/
lemma tokens_of_lexeme (h : ¬ IsTrivial c cs) :
    tokens ⟨n, c :: cs⟩ =
      ⟨(lexeme c cs).kind, (lexeme c cs).text, ⟨n, n + (lexeme c cs).width⟩⟩ ::
        tokens ⟨n + (lexeme c cs).width, (lexeme c cs).rest⟩ := by
  apply tokens_of_next?
  obtain ⟨noSpace, noComment⟩ := not_or.1 h
  simp [next?, afterTrivia, skipTrivia, noSpace, noComment]

end Tokens

end Cursor

/-- The token, so many characters further on. -/
def Token.moved (n : Nat) (t : Token) : Token :=
  { t with span := ⟨n + t.span.start, n + t.span.stop⟩ }

/-- The tokens of a text without their places. -/
def Token.scan (cs : List Char) : List Token := (Cursor.tokens ⟨0, cs⟩).map shape

namespace Cursor

/-- Trivia are skipped in the same way further on in a text. -/
lemma skipTrivia_add (inComment : Bool) (n k : Nat) (cs : List Char) :
    skipTrivia inComment (n + k) cs =
      ⟨n + (skipTrivia inComment k cs).offset, (skipTrivia inComment k cs).rest⟩ := by
  induction cs generalizing inComment k with
  | nil => rfl
  | cons c cs ih =>
    simp only [skipTrivia, Nat.add_assoc]
    split
    · exact ih _ _
    · split
      · exact ih _ _
      · split
        · exact ih _ _
        · rfl

/-- The next token is the same further on in a text, but moved. -/
lemma next?_add (n k : Nat) (cs : List Char) :
    next? ⟨n + k, cs⟩ =
      (next? ⟨k, cs⟩).map fun (t, c) => (t.moved n, ⟨n + c.offset, c.rest⟩) := by
  simp only [next?, afterTrivia, skipTrivia_add false n k cs]
  cases skipTrivia false k cs with
  | mk start rest =>
    cases rest with
    | nil => rfl
    | cons c cs => simp [Token.moved, Nat.add_assoc]

/-- Where a text starts bears on nothing but the spans of its tokens. -/
lemma tokens_add (n k : Nat) (cs : List Char) :
    tokens ⟨n + k, cs⟩ = (tokens ⟨k, cs⟩).map (Token.moved n) := by
  induction len : cs.length using Nat.strongRecOn generalizing k cs with
  | ind len ih =>
    subst len
    cases first : next? ⟨k, cs⟩ with
    | none =>
      have moved : next? ⟨n + k, cs⟩ = none := by
        rw [next?_add, first]
        rfl
      rw [tokens_of_none first, tokens_of_none moved]
      rfl
    | some r =>
      obtain ⟨t, k', cs'⟩ := r
      have moved : next? ⟨n + k, cs⟩ = some (t.moved n, ⟨n + k', cs'⟩) := by
        rw [next?_add, first]
        rfl
      rw [tokens_of_next? first, tokens_of_next? moved, List.map_cons,
        ih _ (next?_rest_lt first) k' cs' rfl]

/-- But for their places the tokens are the same wherever the text stands. -/
lemma shape_tokens (n : Nat) (cs : List Char) :
    (tokens ⟨n, cs⟩).map Token.shape = Token.scan cs := by
  rw [← Nat.add_zero n, tokens_add, List.map_map]
  rfl

end Cursor

namespace Token

/-- A word, standing nowhere. -/
def word (text : String) : Token := ⟨.ofWord text, text, .nowhere⟩

/-- A token of one character, standing nowhere. -/
def mark (c : Char) : Token := ⟨(Cursor.punctuation? c).getD .illegal, String.singleton c, .nowhere⟩

open Cursor

variable {c : Char} {cs rest : List Char}

/-- Nothing is scanned as no tokens. -/
@[simp] lemma scan_nil : scan [] = [] := by
  simp [scan]

/-- White space in front is left out. -/
lemma scan_space (space : isSpace c) : scan (c :: cs) = scan cs := by
  rw [scan, tokens_space space, shape_tokens]

/-- Any other front is scanned as one token and what is behind it. -/
lemma scan_of_lexeme (h : ¬ IsTrivial c cs) :
    scan (c :: cs) = ⟨(Cursor.lexeme c cs).kind, (Cursor.lexeme c cs).text, .nowhere⟩ ::
      scan (Cursor.lexeme c cs).rest := by
  rw [scan, tokens_of_lexeme h, List.map_cons, shape_tokens]
  rfl

/-- A word is scanned up to the first character that does not go on with it. -/
lemma scan_word (start : startsWord c) (more : ∀ c ∈ cs, continuesWord c)
    (stops : Stops continuesWord rest) :
    scan (c :: (cs ++ rest)) = word (String.ofList (c :: cs)) :: scan rest := by
  have noTrivia : ¬ IsTrivial c (cs ++ rest) := fun trivial => by
    cases (continuesWord_of_startsWord start).symm.trans trivial.not_continuesWord
  rw [scan_of_lexeme noTrivia, lexeme_word start more stops, word]

/-- A numeral is scanned up to the first character that is no digit. -/
lemma scan_digits (digit : c.isDigit) (more : ∀ c ∈ cs, c.isDigit)
    (stops : Stops Char.isDigit rest) :
    scan (c :: (cs ++ rest)) = ⟨.int, String.ofList (c :: cs), .nowhere⟩ :: scan rest := by
  have noTrivia : ¬ IsTrivial c (cs ++ rest) := fun trivial => by
    cases (continuesWord_of_isDigit digit).symm.trans trivial.not_continuesWord
  rw [scan_of_lexeme noTrivia, lexeme_digits digit more stops]

/-- A text is scanned up to the next quotation mark. -/
lemma scan_quoted (noQuote : '"' ∉ cs) :
    scan ('"' :: (cs ++ '"' :: rest)) = ⟨.string, String.ofList cs, .nowhere⟩ :: scan rest := by
  have noTrivia : ¬ IsTrivial '"' (cs ++ '"' :: rest) := fun trivial =>
    absurd trivial.mem (by decide)
  rw [scan_of_lexeme noTrivia, lexeme_quoted noQuote]

/-- A character of the punctuation, before one that does not go on with it. -/
lemma scan_mark (h : (punctuation? c).isSome) (alone : c = '=' ∨ c = '!' → cs.head? ≠ some '=')
    (noComment : c = '/' → cs.head? ≠ some '/') : scan (c :: cs) = mark c :: scan cs := by
  obtain ⟨noSpace, noQuote, noDigit, noWord⟩ := of_punctuation? h
  have noTrivia : ¬ IsTrivial c cs := by
    rintro (space | ⟨slash, slash'⟩)
    · cases noSpace.symm.trans space
    · exact noComment slash slash'
  rw [scan_of_lexeme noTrivia, lexeme_single noQuote noDigit noWord alone, mark]

end Token

end Monkey
