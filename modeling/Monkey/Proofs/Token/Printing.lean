import Monkey.Proofs.Syntax.Spelling
import Monkey.Proofs.Token.Coverage

/-!
# Printed tokens

Tokens can be printed one behind the other with a blank between them. Scanned again, the text gives
the same tokens, each where it was printed, because a blank goes on with no token: there are as many
ways to spell a token as there are kinds, and for each the scanner stops just at the blank. Main
statements: `TokenKind.Fits.begins`, which has one case for each way to spell a token, and
`Token.ofSource_printed`.
-/

namespace Monkey

open Text Cursor

namespace TokenKind

/-- The kinds that are written with signs, each in just one way. -/
def signs : List TokenKind :=
  [.assign, .plus, .minus, .star, .slash, .bang, .less, .greater, .equalEqual, .bangEqual,
    .leftParen, .rightParen, .leftBrace, .rightBrace, .comma, .semicolon]

/-- The kinds of the keywords. -/
def keywords : List TokenKind :=
  [.trueWord, .falseWord, .letWord, .returnWord, .ifWord, .elseWord, .fnWord]

/-- The lexeme is one that a token of the kind can be printed with. -/
inductive Fits : TokenKind → String → Prop where
  | sign {kind} :
    kind ∈ signs →
    Fits kind kind.text
  | keyword {kind} :
    kind ∈ keywords →
    Fits kind kind.text
  | name {word} :
    IsName word →
    Fits .identifier word
  | numeral {digits} :
    digits ≠ "" →
    (∀ c ∈ digits.toList, c.isDigit) →
    Fits .int digits
  | string {text} :
    '"' ∉ text.toList →
    Fits .string text
  | stray {c} :
    isSpace c = false →
    c ≠ '"' →
    c.isDigit = false →
    startsWord c = false →
    punctuation? c = none →
    Fits .illegal (String.singleton c)

/-- Behind a printed token the text is over or there is a blank. -/
def Separated (rest : List Char) : Prop := ∀ c ∈ rest.head?, c = ' '

variable {kind : TokenKind} {lexeme : String} {c : Char} {cs rest : List Char}

/-- A blank, or the end, ends what holds no blanks. -/
lemma Separated.stops {p : Char → Bool} (h : Separated rest) (blank : p ' ' = false) :
    Stops p rest := by
  intro c head
  rw [h c head]
  exact blank

/-- Where a blank or the end stands nothing else does. -/
lemma Separated.head?_ne (h : Separated rest) (other : c ≠ ' ') : rest.head? ≠ some c :=
  fun head => other (h c head)

/-- The characters begin a token that ends where they do. -/
def BeginsWith (kind : TokenKind) (lexeme : String) (rest cs : List Char) : Prop :=
  ∃ c more, cs = c :: more ∧ ¬ IsTrivial c (more ++ rest) ∧
    Cursor.lexeme c (more ++ rest) = ⟨kind, lexeme, cs.length, rest⟩

/-- A character that begins nothing longer is a token for itself in front of a blank. -/
lemma beginsWith_single (separated : Separated rest) (noSpace : isSpace c = false)
    (noQuote : c ≠ '"') (noDigit : c.isDigit = false) (noWord : startsWord c = false) :
    BeginsWith ((punctuation? c).getD .illegal) (String.singleton c) rest [c] := by
  refine ⟨c, [], rfl, ?_, ?_⟩
  · rintro (space | ⟨_, comment⟩)
    · cases noSpace.symm.trans space
    · exact separated.head?_ne (by decide) comment
  · apply lexeme_single noQuote noDigit noWord
    intro _
    exact separated.head?_ne (by decide)

/-- A word is a token in front of a blank, be it a keyword or a name. -/
lemma beginsWith_word {word : String} (eq : word.toList = c :: cs) (start : startsWord c)
    (more : ∀ c ∈ cs, continuesWord c) (separated : Separated rest) :
    BeginsWith (.ofWord word) word rest word.toList := by
  have text : String.ofList (c :: cs) = word := by rw [← eq, String.ofList_toList]
  refine ⟨c, cs, eq, ?_, ?_⟩
  · intro trivial
    cases (continuesWord_of_startsWord start).symm.trans trivial.not_continuesWord
  · rw [lexeme_word start more (separated.stops rfl), text, eq, List.length_cons]

/-- A sign is a token in front of a blank. -/
lemma beginsWith_sign (mem : kind ∈ signs) (separated : Separated rest) :
    BeginsWith kind kind.text rest kind.text.toList := by
  cases kind with
  | equalEqual => exact ⟨'=', ['='], rfl, fun trivial => absurd trivial.mem (by decide), rfl⟩
  | bangEqual => exact ⟨'!', ['='], rfl, fun trivial => absurd trivial.mem (by decide), rfl⟩
  | assign | plus | minus | star | slash | bang | less | greater | leftParen | rightParen
  | leftBrace | rightBrace | comma | semicolon =>
    exact beginsWith_single separated rfl (by decide) rfl rfl
  | _ => exact absurd mem (by decide)

/-- A keyword is a token in front of a blank. -/
lemma beginsWith_keyword (mem : kind ∈ keywords) (separated : Separated rest) :
    BeginsWith kind kind.text rest kind.text.toList := by
  cases kind with
  | trueWord | falseWord | letWord | returnWord | ifWord | elseWord | fnWord =>
    exact beginsWith_word rfl rfl (List.all_eq_true.1 rfl) separated
  | _ => exact absurd mem (by decide)

/-- A name is printed as a token. -/
lemma beginsWith_name {word : String} (name : IsName word) (separated : Separated rest) :
    BeginsWith .identifier word rest word.toList := by
  obtain ⟨c, cs, eq, start, more⟩ := name.eq_cons
  have begins := beginsWith_word eq start more separated
  rwa [TokenKind.ofWord, name.2.2.2] at begins

/-- A numeral is printed as a token. -/
lemma beginsWith_numeral {digits : String} (some : digits ≠ "")
    (all : ∀ c ∈ digits.toList, c.isDigit) (separated : Separated rest) :
    BeginsWith .int digits rest digits.toList := by
  cases eq : digits.toList with
  | nil => exact absurd (String.toList_eq_nil_iff.1 eq) some
  | cons c cs =>
    rw [eq] at all
    obtain ⟨digit, more⟩ := List.forall_mem_cons.1 all
    have text : String.ofList (c :: cs) = digits := by rw [← eq, String.ofList_toList]
    refine ⟨c, cs, rfl, ?_, ?_⟩
    · intro trivial
      cases (continuesWord_of_isDigit digit).symm.trans trivial.not_continuesWord
    · rw [lexeme_digits digit more (separated.stops rfl), text, List.length_cons]

/-- A text is printed in quotation marks as a token. -/
lemma beginsWith_string {text : String} (noQuote : '"' ∉ text.toList) (rest : List Char) :
    BeginsWith .string text rest ('"' :: (text.toList ++ ['"'])) := by
  refine ⟨'"', text.toList ++ ['"'], rfl, ?_, ?_⟩
  · intro trivial
    exact absurd trivial.mem (by decide)
  · rw [List.append_assoc, List.singleton_append, lexeme_quoted noQuote, String.ofList_toList]
    simp

/-- In front of a blank, a token is scanned as it was printed. -/
lemma Fits.begins (fits : Fits kind lexeme) (separated : Separated rest) :
    BeginsWith kind lexeme rest (kind.spell lexeme) := by
  cases fits with
  | sign mem =>
    have noString : kind ≠ .string := by
      rintro rfl
      revert mem
      decide
    rw [spell, if_neg noString]
    exact beginsWith_sign mem separated
  | keyword mem =>
    have noString : kind ≠ .string := by
      rintro rfl
      revert mem
      decide
    rw [spell, if_neg noString]
    exact beginsWith_keyword mem separated
  | name name => exact beginsWith_name name separated
  | numeral some all => exact beginsWith_numeral some all separated
  | string noQuote => exact beginsWith_string noQuote rest
  | @stray c noSpace noQuote noDigit noWord noSign =>
    have begins := beginsWith_single separated noSpace noQuote noDigit noWord
    rw [noSign] at begins
    rw [spell, if_neg (by decide), String.toList_singleton]
    exact begins

end TokenKind

namespace Token

/-- Tokens to print: a kind and a lexeme for each. -/
abbrev Listing := List (TokenKind × String)

/-- The tokens on one line, with a blank between each two. -/
def printed (listing : Listing) : List Char :=
  [' '].intercalate (listing.map fun (kind, lexeme) => kind.spell lexeme)

/-- The tokens where they are printed, the first one at an offset. -/
def placed (n : Nat) : Listing → List Token
  | [] => []
  | (kind, lexeme) :: others =>
    let stop := n + (kind.spell lexeme).length
    ⟨kind, lexeme, ⟨n, stop⟩⟩ :: placed (stop + 1) others

variable {kind : TokenKind} {lexeme : String} {rest : List Char} {listing : Listing} {n : Nat}

/-- The first token is scanned off a printed text. -/
lemma tokens_spell (fits : kind.Fits lexeme) (separated : TokenKind.Separated rest) :
    Cursor.tokens ⟨n, kind.spell lexeme ++ rest⟩ =
      ⟨kind, lexeme, ⟨n, n + (kind.spell lexeme).length⟩⟩ ::
        Cursor.tokens ⟨n + (kind.spell lexeme).length, rest⟩ := by
  obtain ⟨c, more, eq, begins, scanned⟩ := fits.begins separated
  have first := tokens_of_lexeme (n := n) begins
  rw [scanned] at first
  rw [eq, List.cons_append, ← eq]
  exact first

/-- Printed tokens are scanned where they were printed, one after the other. -/
lemma tokens_printed (fits : ∀ t ∈ listing, t.1.Fits t.2) :
    Cursor.tokens ⟨n, printed listing⟩ = placed n listing := by
  induction listing generalizing n with
  | nil => exact tokens_nil
  | cons t others ih =>
    obtain ⟨kind, lexeme⟩ := t
    obtain ⟨first, more⟩ := List.forall_mem_cons.1 fits
    cases others with
    | nil =>
      have alone : printed [(kind, lexeme)] = kind.spell lexeme ++ [] := by simp [printed]
      have ends : TokenKind.Separated [] := by
        intro c head
        cases head
      rw [alone, tokens_spell first ends, tokens_nil]
      rfl
    | cons t' others =>
      have split : printed ((kind, lexeme) :: t' :: others) =
          kind.spell lexeme ++ ' ' :: printed (t' :: others) := by
        simp [printed, List.intercalate_cons_cons]
      have blank : TokenKind.Separated (' ' :: printed (t' :: others)) := by
        intro c head
        exact (Option.some.inj head).symm
      rw [split, tokens_spell first blank, tokens_space rfl, ih more]
      rfl

/-- The tokens of a listing are its kinds and texts. -/
lemma map_placed (n : Nat) (listing : Listing) :
    (placed n listing).map (fun t => (t.kind, t.lexeme)) = listing := by
  induction listing generalizing n with
  | nil => rfl
  | cons t others ih => rw [placed, List.map_cons, ih]

/-- Tokens printed with a blank between each two are scanned again as they were: the same kinds with
the same lexemes where they were printed, and then the end marker. -/
theorem ofSource_printed (listing : Listing) (fits : ∀ t ∈ listing, t.1.Fits t.2) :
    let source := String.ofList (printed listing)
    ofSource source = placed 0 listing ++ [.eof source.length] ∧
      (placed 0 listing).map (fun t => (t.kind, t.lexeme)) = listing := by
  intro source
  refine ⟨?_, map_placed 0 listing⟩
  rw [ofSource, Cursor.ofSource, String.toList_ofList, tokens_printed fits]

/-- A keyword, a name that begins with it, two slashes, the beginning and the whole of an operator,
a string with a comment and a line break inside, and a character that begins no token. -/
def mixedListing : Listing :=
  [(.letWord, "let"), (.identifier, "lets"), (.slash, "/"), (.slash, "/"), (.bang, "!"),
    (.bangEqual, "!="), (.int, "007"), (.string, "// fn\n"), (.illegal, String.singleton 'é')]

/-- With blanks in between, nothing of this listing runs into what is next to it. -/
theorem ofSource_printed_mixed :
    (∀ t ∈ mixedListing, t.1.Fits t.2) ∧
      ofSource "let lets / / ! != 007 \"// fn\n\" é" =
        placed 0 mixedListing ++ [.eof 32] := by
  have name : IsName "lets" := isName_of_all (by decide) (by decide) (by decide) rfl
  have fits : ∀ t ∈ mixedListing, t.1.Fits t.2 := by
    simp only [mixedListing, List.forall_mem_cons]
    exact ⟨.keyword (by decide), .name name, .sign (by decide), .sign (by decide),
      .sign (by decide), .sign (by decide), .numeral (by decide) (List.all_eq_true.1 rfl),
      .string (by decide), .stray rfl (by decide) rfl rfl rfl, List.forall_mem_nil _⟩
  have text : String.ofList (printed mixedListing) = "let lets / / ! != 007 \"// fn\n\" é" := by
    decide
  have length : "let lets / / ! != 007 \"// fn\n\" é".length = 32 := by decide
  have scanned := (ofSource_printed mixedListing fits).1
  rw [text, length] at scanned
  exact ⟨fits, scanned⟩

end Token

end Monkey
