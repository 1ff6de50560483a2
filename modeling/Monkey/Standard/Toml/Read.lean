import Monkey.Text.Taken
import Monkey.Standard.Toml.Scalar
import Monkey.Standard.Toml.Table

/-!
# Reading TOML

Reads a document: statements on lines of their own, among blanks and comments. A reader that can be
used again on what it leaves comes with the proof that it takes something. Arrays and tables are
nested, and names stand in a key, only up to a limit.
-/

namespace Monkey.Toml

open Text (Taken)

/-- How deep the arrays and tables of a value may be nested, and how many names may stand in a
key. -/
def maxDepth : Nat := 79

/-! ## Blanks and comments -/

/-- The blanks within a line. -/
def isSpace (c : Char) : Bool := c == ' ' || c == '\t'

/-- The characters that may stand as they are in a comment or between quotes: all but the control
characters, of which only the tab may. -/
def isPlain (c : Char) : Bool := c == '\t' || (0x20 ≤ c.toNat && c.toNat != 0x7F)

/-- The text after the blanks it begins with. -/
def skipSpace (cs : List Char) : List Char := cs.dropWhile isSpace

/-- The text after a line break. -/
def lineBreak? : List Char → Option (List Char)
  | '\n' :: rest => some rest
  | '\r' :: '\n' :: rest => some rest
  | _ => none

/-- The text after the comment it begins with, if any. -/
def skipComment : List Char → List Char
  | '#' :: comment => comment.dropWhile isPlain
  | cs => cs

/-- The text after the end of a line, which may have a comment. -/
def endLine? (cs : List Char) : Option (List Char) :=
  match skipComment (skipSpace cs) with
  | [] => some []
  | rest => lineBreak? rest

/-- The text after blanks, line breaks and comments; `comment` tells whether it begins inside a
comment. -/
def skipBlank (comment : Bool) : List Char → List Char
  | [] => []
  | '\r' :: '\n' :: rest => skipBlank false rest
  | '\n' :: rest => skipBlank false rest
  | c :: rest =>
    if comment && isPlain c then skipBlank true rest
    else if comment then c :: rest
    else if isSpace c then skipBlank false rest
    else if c = '#' then skipBlank true rest
    else c :: rest

/-- The text after blanks and line breaks. -/
def skipBreaks : List Char → List Char
  | [] => []
  | '\r' :: '\n' :: rest => skipBreaks rest
  | '\n' :: rest => skipBreaks rest
  | c :: rest => if isSpace c then skipBreaks rest else c :: rest

/-- Skipping space leaves no more text. -/
theorem skipSpace_length_le (cs : List Char) : (skipSpace cs).length ≤ cs.length :=
  (List.dropWhile_suffix isSpace).length_le

/-- What follows a character after blanks is shorter than the whole. -/
theorem length_lt_of_skipSpace {cs rest : List Char} {c : Char} (h : skipSpace cs = c :: rest) :
    rest.length < cs.length := by
  have := skipSpace_length_le cs
  rwa [h] at this

/-- A line break takes some text. -/
theorem lineBreak?_length_lt {cs rest : List Char} (h : lineBreak? cs = some rest) :
    rest.length < cs.length := by
  unfold lineBreak? at h
  split at h
  · cases h
    exact Nat.lt_succ_self _
  · cases h
    exact Nat.lt_succ_of_lt (Nat.lt_succ_self _)
  · cases h

/-- Skipping a comment leaves no more text. -/
theorem skipComment_length_le (cs : List Char) : (skipComment cs).length ≤ cs.length := by
  unfold skipComment
  split
  · exact Nat.le_succ_of_le (List.dropWhile_suffix _).length_le
  · exact Nat.le_refl _

/-- The end of a line leaves no more text. -/
theorem endLine?_length_le {cs rest : List Char} (h : endLine? cs = some rest) :
    rest.length ≤ cs.length := by
  have spaces := skipSpace_length_le cs
  have comment := skipComment_length_le (skipSpace cs)
  unfold endLine? at h
  split at h
  · cases h
    exact Nat.zero_le _
  · have := lineBreak?_length_lt h
    omega

/-- Skipping blank lines leaves no more text. -/
theorem skipBlank_length_le (comment : Bool) (cs : List Char) :
    (skipBlank comment cs).length ≤ cs.length := by
  fun_induction skipBlank comment cs <;> grind

/-- What follows a character after blanks and comments is shorter than the whole. -/
theorem length_lt_of_skipBlank {comment : Bool} {cs rest : List Char} {c : Char}
    (h : skipBlank comment cs = c :: rest) : rest.length < cs.length := by
  have := skipBlank_length_le comment cs
  rwa [h] at this

/-- Skipping line breaks leaves no more text. -/
theorem skipBreaks_length_le (cs : List Char) : (skipBreaks cs).length ≤ cs.length := by
  fun_induction skipBreaks cs <;> grind

/-! ## Texts -/

/-- The character with a number, unless there is none. -/
def character? (n : Nat) : Option Char := if n.isValidChar then some (Char.ofNat n) else none

/-- The character for the rest of an escape, after its backslash. -/
def escape? (cs : List Char) : Option (Taken Char cs) :=
  match cs with
  | '"' :: rest => some (.one '"' _ rest)
  | '\\' :: rest => some (.one '\\' _ rest)
  | 'b' :: rest => some (.one '\x08' _ rest)
  | 'f' :: rest => some (.one '\x0c' _ rest)
  | 'n' :: rest => some (.one '\n' _ rest)
  | 'r' :: rest => some (.one '\r' _ rest)
  | 't' :: rest => some (.one '\t' _ rest)
  | 'u' :: a :: b :: c :: d :: rest =>
    ((Numeral.hex? [a, b, c, d]).bind character?).map fun char =>
      (Taken.one char d rest).behind ['u', a, b, c]
  | 'U' :: a :: b :: c :: d :: e :: f :: g :: h :: rest =>
    ((Numeral.hex? [a, b, c, d, e, f, g, h]).bind character?).map fun char =>
      (Taken.one char h rest).behind ['U', a, b, c, d, e, f, g]
  | _ => none

/-- The rest of a text between double quotes, after the first. -/
def quotedBody? (cs : List Char) : Option (Taken (List Char) cs) :=
  match cs with
  | [] => none
  | '"' :: rest => some (.one [] _ rest)
  | '\\' :: rest =>
    match escape? rest with
    | none => none
    | some t =>
      have := t.shorter
      (quotedBody? t.rest).map fun u => (t.andThen .cons u).behind ['\\']
  | c :: rest =>
    if isPlain c then (quotedBody? rest).map fun t => (t.map (c :: ·)).behind [c]
    else none
termination_by cs.length

/-- The rest of a text between single quotes, after the first. Nothing in it is an escape. -/
def literalBody? (cs : List Char) : Option (Taken (List Char) cs) :=
  match cs with
  | [] => none
  | '\'' :: rest => some (.one [] _ rest)
  | c :: rest =>
    if isPlain c then (literalBody? rest).map fun t => (t.map (c :: ·)).behind [c]
    else none

/-- The end of a text between triple quotes: three quotes, before which up to two more belong to the
text. -/
def longEnd? (quote : Char) (cs : List Char) : Option (Taken (List Char) cs) :=
  match cs with
  | a :: b :: c :: rest =>
    if a = quote ∧ b = quote ∧ c = quote then
      let inner := (rest.takeWhile (· == quote)).take 2
      let closed := (Taken.one inner c rest).behind [a, b]
      some (closed.leaving (rest.drop inner.length) (List.drop_suffix _ rest).length_le)
    else none
  | _ => none

/-- The rest of a text between triple quotes, after the first three and the line break that may
follow them. Between double quotes there are escapes, and a backslash at the end of a line takes
away all blanks up to the next character. -/
def longBody? (quote : Char) (cs : List Char) : Option (Taken (List Char) cs) :=
  match longEnd? quote cs with
  | some t => some t
  | none =>
    match cs with
    | [] => none
    | '\r' :: '\n' :: rest =>
      (longBody? quote rest).map fun t => (t.map ('\n' :: ·)).behind ['\r', '\n']
    | '\n' :: rest => (longBody? quote rest).map fun t => (t.map ('\n' :: ·)).behind ['\n']
    | c :: rest =>
      if c = '\\' ∧ quote = '"' then
        match h : lineBreak? (skipSpace rest) with
        | some next =>
          have bound : (skipBreaks next).length < rest.length :=
            Nat.lt_of_le_of_lt (skipBreaks_length_le next)
              (Nat.lt_of_lt_of_le (lineBreak?_length_lt h) (skipSpace_length_le rest))
          (longBody? quote (skipBreaks next)).map fun t => (t.within bound).behind [c]
        | none =>
          match escape? rest with
          | none => none
          | some t =>
            have := t.shorter
            (longBody? quote t.rest).map fun u => (t.andThen .cons u).behind [c]
      else if isPlain c then (longBody? quote rest).map fun t => (t.map (c :: ·)).behind [c]
      else none
termination_by cs.length

/-- The text without the line break it begins with, if any. -/
def skipFirstBreak (cs : List Char) : List Char := (lineBreak? cs).getD cs

/-- Skipping a first line break leaves no more text. -/
theorem skipFirstBreak_length_le (cs : List Char) : (skipFirstBreak cs).length ≤ cs.length := by
  unfold skipFirstBreak
  cases h : lineBreak? cs with
  | none => simp
  | some rest => exact Nat.le_of_lt (lineBreak?_length_lt h)

/-- A text in quotes. -/
def quotedText? (cs : List Char) : Option (Taken (List Char) cs) :=
  match cs with
  | '"' :: '"' :: '"' :: rest =>
    (longBody? '"' (skipFirstBreak rest)).map fun t =>
      (t.widen (skipFirstBreak_length_le rest)).behind ['"', '"', '"']
  | '\'' :: '\'' :: '\'' :: rest =>
    (longBody? '\'' (skipFirstBreak rest)).map fun t =>
      (t.widen (skipFirstBreak_length_le rest)).behind ['\'', '\'', '\'']
  | '"' :: rest => (quotedBody? rest).map (·.behind ['"'])
  | '\'' :: rest => (literalBody? rest).map (·.behind ['\''])
  | _ => none

/-! ## Keys -/

/-- The characters of a name without quotes. -/
def isBare (c : Char) : Bool := c.isAlphanum || c == '-' || c == '_'

/-- A run of characters of one kind. -/
def run? (kind : Char → Bool) (cs : List Char) : Option (Taken (List Char) cs) :=
  match cs with
  | [] => none
  | c :: rest =>
    if kind c then
      some ⟨c :: rest.takeWhile kind, rest.dropWhile kind,
        Nat.lt_succ_of_le (List.dropWhile_suffix _).length_le⟩
    else none

/-- A name, in quotes on one line or without quotes. -/
def name? (cs : List Char) : Option (Taken (List Char) cs) :=
  match cs with
  | '"' :: rest => (quotedBody? rest).map (·.behind ['"'])
  | '\'' :: rest => (literalBody? rest).map (·.behind ['\''])
  | cs => run? isBare cs

/-- Names with points between them, among blanks. -/
def names? (cs : List Char) : Option (Taken Key cs) :=
  match name? (skipSpace cs) with
  | none => none
  | some t =>
    have taken : t.rest.length < cs.length := Nat.lt_of_lt_of_le t.shorter (skipSpace_length_le cs)
    match h : skipSpace t.rest with
    | '.' :: others =>
      have shorter : others.length < cs.length := Nat.lt_trans (length_lt_of_skipSpace h) taken
      (names? others).map fun u =>
        (u.map fun key => { key with path := String.ofList t.value :: key.path }).within shorter
    | _ =>
      some ⟨⟨[], String.ofList t.value⟩, skipSpace t.rest,
        Nat.lt_of_le_of_lt (skipSpace_length_le t.rest) taken⟩
termination_by cs.length

/-- A key. -/
def key? (cs : List Char) : Option (Taken Key cs) :=
  (names? cs).filter fun t => t.value.path.length < maxDepth

/-! ## Values -/

/-- The characters of a number, a truth value, a date or a time. -/
def isScalarChar (c : Char) : Bool :=
  c.isAlphanum || c == '_' || c == '+' || c == '-' || c == '.' || c == ':'

/-- The rest of a date and time that have a blank between them, after the date. -/
def timeAfter? (date cs : List Char) : Option (Taken (List Char) cs) :=
  match cs with
  | ' ' :: rest =>
    match run? isScalarChar rest with
    | some t =>
      if afterDate? date = some [] ∧ (afterTime? t.value).isSome then
        some ((t.map (' ' :: ·)).behind [' '])
      else none
    | none => none
  | _ => none

/-- A value that holds no other value. -/
def plainValue? (cs : List Char) : Option (Taken Toml cs) :=
  match quotedText? cs with
  | some t => some (t.map fun text => .string (String.ofList text))
  | none =>
    match run? isScalarChar cs with
    | none => none
    | some t =>
      match timeAfter? t.value t.rest with
      | some u => (scalar? (t.value ++ u.value)).map fun value => t.andThen (fun _ _ => value) u
      | none => (scalar? t.value).map fun value => t.map fun _ => value

mutual

/-- A value in which arrays and tables may be nested so deep. -/
def value? (depth : Nat) (cs : List Char) : Option (Taken Toml cs) :=
  match depth, cs with
  | 0, '[' :: _ => none
  | 0, '\x7b' :: _ => none
  | inner + 1, '[' :: rest =>
    (items? inner rest).map fun t => (t.map .array).behind ['[']
  | inner + 1, '\x7b' :: rest =>
    match entries? inner rest with
    | none => none
    | some t => (inline? t.value).map fun table => (t.map fun _ => table).behind ['\x7b']
  | _, cs => plainValue? cs
termination_by (cs.length, 0)

/-- The items of an array and its end, after the opening bracket or a comma. -/
def items? (depth : Nat) (cs : List Char) : Option (Taken (List Toml) cs) :=
  match h : skipBlank false cs with
  | ']' :: rest => some ⟨[], rest, length_lt_of_skipBlank h⟩
  | _ =>
    have blanks := skipBlank_length_le false cs
    match value? depth (skipBlank false cs) with
    | none => none
    | some t =>
      have taken : t.rest.length < cs.length := Nat.lt_of_lt_of_le t.shorter blanks
      match h' : skipBlank false t.rest with
      | ']' :: rest => some ⟨[t.value], rest, Nat.lt_trans (length_lt_of_skipBlank h') taken⟩
      | ',' :: rest =>
        have shorter : rest.length < cs.length := Nat.lt_trans (length_lt_of_skipBlank h') taken
        (items? depth rest).map fun u => (u.map (t.value :: ·)).within shorter
      | _ => none
termination_by (cs.length, 1)
decreasing_by
  · exact Prod.lex_def.2 ((Nat.lt_or_eq_of_le blanks).imp id (⟨·, Nat.zero_lt_one⟩))
  · exact Prod.Lex.left _ _ shorter

/-- The entries of a table between braces and its end, after the opening brace. -/
def entries? (depth : Nat) (cs : List Char) : Option (Taken (List (Key × Toml)) cs) :=
  match h : skipSpace cs with
  | '\x7d' :: rest => some ⟨[], rest, length_lt_of_skipSpace h⟩
  | _ => moreEntries? depth cs
termination_by (cs.length, 2)

/-- The entries of a table between braces and its end, after the opening brace or a comma. There is
at least one. -/
def moreEntries? (depth : Nat) (cs : List Char) : Option (Taken (List (Key × Toml)) cs) :=
  match binding? depth cs with
  | none => none
  | some t =>
    have taken := t.shorter
    match h : skipSpace t.rest with
    | '\x7d' :: rest => some ⟨[t.value], rest, Nat.lt_trans (length_lt_of_skipSpace h) taken⟩
    | ',' :: rest =>
      have shorter : rest.length < cs.length := Nat.lt_trans (length_lt_of_skipSpace h) taken
      (moreEntries? depth rest).map fun u => (u.map (t.value :: ·)).within shorter
    | _ => none
termination_by (cs.length, 1)

/-- A key and its value. -/
def binding? (depth : Nat) (cs : List Char) : Option (Taken (Key × Toml) cs) :=
  match key? cs with
  | none => none
  | some t =>
    have taken := t.shorter
    match h : t.rest with
    | '=' :: rest =>
      have shorter : (skipSpace rest).length < cs.length := by
        rw [h] at taken
        exact Nat.lt_of_le_of_lt (skipSpace_length_le rest) (Nat.lt_of_succ_lt taken)
      (value? depth (skipSpace rest)).map fun u => (u.map (t.value, ·)).within shorter
    | _ => none
termination_by (cs.length, 0)
decreasing_by exact Prod.Lex.left _ _ shorter

end

/-! ## Documents -/

/-- A header or an entry, without the end of its line. -/
def statement? (cs : List Char) : Option (Taken Statement cs) :=
  match cs with
  | '[' :: '[' :: rest =>
    match key? rest with
    | some ⟨key, ']' :: ']' :: rest', h⟩ =>
      some ((Taken.mk (.nextHeader key) rest' (Nat.lt_of_succ_lt (Nat.lt_of_succ_lt h))).behind
        ['[', '['])
    | _ => none
  | '[' :: rest =>
    match key? rest with
    | some ⟨key, ']' :: rest', h⟩ =>
      some ((Taken.mk (.header key) rest' (Nat.lt_of_succ_lt h)).behind ['['])
    | _ => none
  | cs => (binding? maxDepth cs).map (·.map fun (key, value) => .entry key value)

/-- The statements of a text, each with a line of its own. -/
def statements? (cs : List Char) : Option (List Statement) :=
  match skipBlank false cs with
  | [] => some []
  | _ =>
    match statement? (skipBlank false cs) with
    | none => none
    | some t =>
      match h : endLine? t.rest with
      | none => none
      | some rest =>
        have : rest.length < cs.length :=
          Nat.lt_of_le_of_lt (endLine?_length_le h)
            (Nat.lt_of_lt_of_le t.shorter (skipBlank_length_le false cs))
        (statements? rest).map (t.value :: ·)
termination_by cs.length

/-- The table that a document describes; `none` if the text is no document. A mark of the byte order
may come first. -/
def read? (text : String) : Option Entries :=
  let cs := match text.toList with
    | '\ufeff' :: cs => cs
    | cs => cs
  (statements? cs).bind ofStatements?

end Monkey.Toml
