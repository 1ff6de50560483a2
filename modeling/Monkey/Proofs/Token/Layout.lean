import Monkey.Proofs.Token.Scanned
import Mathlib.Logic.Relation

/-!
# Layout

Blanks and comments may be put in front of any token of a text: as long as they begin with a blank,
so that they end the token before, the text has the same tokens as it had. Only their places change.
Main statement: `Token.ofSource_layout`.
-/

namespace Monkey

open Text Cursor

/-- Blanks and whole comments, each with the end of its line. -/
inductive IsTrivia : List Char → Prop where
  | nil : IsTrivia []
  | blank {c cs} : isSpace c → IsTrivia cs → IsTrivia (c :: cs)
  | comment {text cs} : '\n' ∉ text → IsTrivia cs → IsTrivia ('/' :: '/' :: (text ++ '\n' :: cs))

/-- Trivia, and behind it a comment whose line does not end. -/
def IsOpenTrivia (cs : List Char) : Prop :=
  ∃ trivia text, IsTrivia trivia ∧ '\n' ∉ text ∧ cs = trivia ++ '/' :: '/' :: text

/-- Trivia that begins with a blank. -/
def IsSpacing (cs : List Char) : Prop := IsTrivia cs ∧ ∃ c ∈ cs.head?, isSpace c

/-- The second source is the first one with spacing in front of one of its tokens. -/
def Spaced (source source' : String) : Prop :=
  ∃ t ∈ Token.ofSource source, t.kind ≠ .eof ∧ ∃ spacing, IsSpacing spacing ∧
    source'.toList =
      source.toList.take t.span.start ++ spacing ++ source.toList.drop t.span.start

variable {c : Char} {cs rest rest' trivia spacing : List Char} {n : Nat}

section Trivia

/-- Inside a comment all characters up to the next line are skipped. -/
lemma skipTrivia_text {text : List Char} (line : '\n' ∉ text) :
    skipTrivia true n (text ++ rest) = skipTrivia true (n + text.length) rest := by
  induction text generalizing n with
  | nil => rfl
  | cons c text ih =>
    simp only [List.mem_cons, not_or] at line
    have inside : (c != '\n') = true := by simpa using Ne.symm line.1
    rw [List.cons_append, skipTrivia, if_pos rfl, inside, ih line.2, List.length_cons,
      Nat.add_right_comm, Nat.add_assoc]

/-- Two slashes begin a comment. -/
lemma skipTrivia_slashes : skipTrivia false n ('/' :: '/' :: cs) = skipTrivia true (n + 2) cs := by
  simp [skipTrivia, isSpace]

/-- Trivia is skipped as a whole. -/
lemma IsTrivia.skip (h : IsTrivia trivia) :
    skipTrivia false n (trivia ++ rest) = skipTrivia false (n + trivia.length) rest := by
  induction h generalizing n with
  | nil => rfl
  | @blank c cs space _ ih =>
    have first : skipTrivia false n (c :: (cs ++ rest)) =
        skipTrivia false (n + 1) (cs ++ rest) := by
      simp [skipTrivia, space]
    rw [List.cons_append, first, ih, List.length_cons, Nat.add_right_comm, Nat.add_assoc]
  | @comment text cs line _ ih =>
    have newline : skipTrivia true (n + 2 + text.length) ('\n' :: (cs ++ rest)) =
        skipTrivia false (n + 2 + text.length + 1) (cs ++ rest) := by
      simp [skipTrivia]
    have length : n + ('/' :: '/' :: (text ++ '\n' :: cs)).length =
        n + 2 + text.length + 1 + cs.length := by
      simp only [List.length_cons, List.length_append]
      omega
    rw [length, ← ih, ← newline, ← skipTrivia_text line, ← skipTrivia_slashes]
    simp

/-- Trivia behind trivia are trivia. -/
lemma IsTrivia.append (h : IsTrivia trivia) (h' : IsTrivia rest) : IsTrivia (trivia ++ rest) := by
  induction h with
  | nil => exact h'
  | blank space _ ih => exact .blank space ih
  | comment line _ ih => simpa using IsTrivia.comment line ih

/-- The tokens of a text begin where trivia ends. -/
lemma IsTrivia.tokens (h : IsTrivia trivia) :
    Cursor.tokens ⟨n, trivia ++ rest⟩ = Cursor.tokens ⟨n + trivia.length, rest⟩ := by
  have same : next? ⟨n, trivia ++ rest⟩ = next? ⟨n + trivia.length, rest⟩ := by
    simp only [next?, afterTrivia, h.skip]
  cases first : next? ⟨n + trivia.length, rest⟩ with
  | none => rw [tokens_of_none first, tokens_of_none (same.trans first)]
  | some r => rw [tokens_of_next? first, tokens_of_next? (same.trans first)]

/-- Trivia scan as nothing. -/
lemma IsTrivia.scan (h : IsTrivia trivia) : Token.scan (trivia ++ rest) = Token.scan rest := by
  rw [Token.scan, h.tokens, shape_tokens]

/-- A text is trivia up to its first token, if it has one. -/
def TriviaFirst (cs : List Char) : Prop :=
  (IsTrivia cs ∨ IsOpenTrivia cs) ∨
    ∃ trivia c rest, IsTrivia trivia ∧ cs = trivia ++ c :: rest ∧ ¬ IsTrivial c rest

/-- Trivia may stand in front of trivia up to a token. -/
lemma TriviaFirst.behind (h : TriviaFirst rest) (first : IsTrivia trivia) :
    TriviaFirst (trivia ++ rest) := by
  rcases h with (closed | ⟨trivia', text, more, line, rfl⟩) | ⟨trivia', c, rest, more, rfl, begins⟩
  · exact .inl (.inl (first.append closed))
  · exact .inl (.inr ⟨trivia ++ trivia', text, first.append more, line,
      (List.append_assoc ..).symm⟩)
  · exact .inr ⟨trivia ++ trivia', c, rest, first.append more, (List.append_assoc ..).symm, begins⟩

/-- In trivia no token stands. -/
lemma tokens_of_trivia (h : IsTrivia cs ∨ IsOpenTrivia cs) : Cursor.tokens ⟨n, cs⟩ = [] := by
  rcases h with closed | ⟨trivia, text, first, line, rfl⟩
  · rw [← List.append_nil cs, closed.tokens, tokens_nil]
  · rw [first.tokens]
    refine tokens_of_none (next?_eq_none_iff.2 ?_)
    rw [afterTrivia, skipTrivia_slashes, ← List.append_nil text, skipTrivia_text line]
    rfl

/-- Every text is trivia up to its first token. -/
lemma triviaFirst (cs : List Char) : TriviaFirst cs := by
  induction len : cs.length using Nat.strongRecOn generalizing cs with
  | ind len ih =>
    subst len
    cases cs with
    | nil => exact .inl (.inl .nil)
    | cons c cs =>
      by_cases trivial : IsTrivial c cs
      · rcases trivial with space | ⟨rfl, slash⟩
        · exact (ih _ (Nat.lt_succ_self _) cs rfl).behind (.blank space .nil)
        · obtain ⟨cs, rfl⟩ : ∃ cs', cs = '/' :: cs' := by
            cases cs with
            | nil => cases slash
            | cons c cs => exact ⟨cs, congrArg (· :: cs) (Option.some.inj slash)⟩
          have line : '\n' ∉ cs.takeWhile (· != '\n') := fun mem => by
            simpa using List.mem_takeWhile_imp mem
          have whole : cs.takeWhile (· != '\n') ++ cs.dropWhile (· != '\n') = cs :=
            List.takeWhile_append_dropWhile
          have ends := List.head?_dropWhile_not (· != '\n') cs
          generalize cs.takeWhile (· != '\n') = text, cs.dropWhile (· != '\n') = more
            at line whole ends
          subst whole
          cases more with
          | nil =>
            -- The comment goes on to the end of the text.
            exact .inl (.inr ⟨[], text, .nil, line, by simp⟩)
          | cons c more =>
            obtain rfl : c = '\n' := by simpa using ends
            have shorter : more.length < ('/' :: '/' :: (text ++ '\n' :: more)).length := by
              simp only [List.length_cons, List.length_append]
              omega
            simpa using (ih _ shorter more rfl).behind (.comment line .nil)
      · exact .inr ⟨[], c, cs, .nil, rfl, trivial⟩

end Trivia

section Lexeme

/-- What stands behind a token: the same goes on, or a blank does. -/
def GoesOn (rest rest' : List Char) : Prop :=
  rest'.head? = rest.head? ∨ ∃ c ∈ rest'.head?, isSpace c

/-- What ends a run without blanks still does so if a blank is put in front. -/
lemma GoesOn.stops {p : Char → Bool} (h : GoesOn rest rest') (blank : ∀ c, isSpace c → p c = false)
    (stops : Stops p rest) : Stops p rest' := by
  rcases h with same | ⟨c, head, space⟩
  · rwa [Stops, same]
  · intro c' head'
    cases Option.mem_unique head head'
    exact blank c space

/-- Where a mark does not stand next it does not if a blank is put in front. -/
lemma GoesOn.head?_ne (h : GoesOn rest rest') (noSpace : isSpace c = false)
    (other : rest.head? ≠ some c) : rest'.head? ≠ some c := by
  rcases h with same | ⟨c', head, space⟩
  · rwa [same]
  · rintro eq
    cases head.symm.trans eq
    cases space.symm.trans noSpace

/-- A blank is no digit. -/
lemma isDigit_of_isSpace (space : isSpace c) : c.isDigit = false := by
  simp only [isSpace, Bool.or_eq_true, beq_iff_eq] at space
  rcases space with ((rfl | rfl) | rfl) | rfl <;> rfl

/-- A blank goes on with no word. -/
lemma continuesWord_of_isSpace (space : isSpace c) : continuesWord c = false :=
  (show IsTrivial c [] from .inl space).not_continuesWord

/-- The token `l` takes some characters off the text; with other characters behind these, which go
on as the text does, it is the same. -/
def SplitsOff (c : Char) (cs : List Char) (l : Lexeme) : Prop :=
  ∃ taken, cs = taken ++ l.rest ∧ l.width = taken.length + 1 ∧
    ∀ rest, GoesOn l.rest rest → lexeme c (taken ++ rest) = { l with rest := rest }

/-- A run of characters of a kind that has no blanks. -/
lemma splitsOff_run {p : Char → Bool} (kind : List Char → TokenKind) (text : List Char → String)
    (blank : ∀ c, isSpace c → p c = false)
    (split : ∀ taken rest, (∀ c ∈ taken, p c) → Stops p rest →
      lexeme c (taken ++ rest) = ⟨kind taken, text taken, taken.length + 1, rest⟩) :
    SplitsOff c cs (lexeme c cs) := by
  have whole : cs.takeWhile p ++ cs.dropWhile p = cs := List.takeWhile_append_dropWhile
  have all : ∀ c ∈ cs.takeWhile p, p c := fun c => List.mem_takeWhile_imp
  have stops : Stops p (cs.dropWhile p) := fun c head => by
    simpa [Option.mem_def.1 head] using List.head?_dropWhile_not p cs
  generalize cs.takeWhile p = taken, cs.dropWhile p = rest at whole all stops
  subst whole
  rw [split taken rest all stops]
  exact ⟨taken, rfl, rfl, fun rest goesOn => split taken rest all (goesOn.stops blank stops)⟩

/-- A token with something behind it is split off alike, whatever goes on behind it. -/
lemma splitsOff_lexeme (c : Char) (cs : List Char) (more : (lexeme c cs).rest ≠ []) :
    SplitsOff c cs (lexeme c cs) := by
  by_cases quote : c = '"'
  · subst quote
    have noQuote : '"' ∉ cs.takeWhile (· != '"') := fun mem => by
      simpa using List.mem_takeWhile_imp mem
    have whole : cs.takeWhile (· != '"') ++ cs.dropWhile (· != '"') = cs :=
      List.takeWhile_append_dropWhile
    have ends := List.head?_dropWhile_not (· != '"') cs
    cases behind : cs.dropWhile (· != '"') with
    | nil => exact absurd (by simp [lexeme, string, behind]) more
    | cons c rest =>
      rw [behind] at whole ends
      obtain rfl : c = '"' := by simpa using ends
      rw [← whole, lexeme_quoted noQuote]
      exact ⟨cs.takeWhile (· != '"') ++ ['"'], by simp, by simp, fun rest _ => by
        rw [List.append_assoc, List.singleton_append, lexeme_quoted noQuote]⟩
  by_cases digit : c.isDigit
  · exact splitsOff_run (fun _ => .int) (fun taken => String.ofList (c :: taken))
      (fun _ => isDigit_of_isSpace) fun taken rest all stops => lexeme_digits digit all stops
  by_cases start : startsWord c
  · exact splitsOff_run (fun taken => .ofWord (String.ofList (c :: taken)))
      (fun taken => String.ofList (c :: taken)) (fun _ => continuesWord_of_isSpace)
      fun taken rest all stops => lexeme_word start all stops
  by_cases pair : (c = '=' ∨ c = '!') ∧ cs.head? = some '='
  · obtain ⟨first, second⟩ := pair
    obtain ⟨cs, rfl⟩ : ∃ cs', cs = '=' :: cs' := by
      cases cs with
      | nil => cases second
      | cons c cs => exact ⟨cs, congrArg (· :: cs) (Option.some.inj second)⟩
    rcases first with rfl | rfl <;> exact ⟨['='], rfl, rfl, fun rest _ => rfl⟩
  -- A single character: what goes on behind it must not make a pair of it.
  · have alone : c = '=' ∨ c = '!' → cs.head? ≠ some '=' := fun first second =>
      pair ⟨first, second⟩
    have noDigit := Bool.eq_false_iff.2 digit
    have noWord := Bool.eq_false_iff.2 start
    rw [lexeme_single quote noDigit noWord alone]
    exact ⟨[], rfl, rfl, fun rest goesOn =>
      lexeme_single quote noDigit noWord fun first => goesOn.head?_ne rfl (alone first)⟩

end Lexeme

section Insertion

/-- Spacing puts a blank in front of what is behind it. -/
lemma IsSpacing.goesOn (h : IsSpacing spacing) : GoesOn rest (spacing ++ rest') := by
  obtain ⟨-, c, head, space⟩ := h
  refine .inr ⟨c, ?_, space⟩
  cases spacing with
  | nil => cases head
  | cons c' spacing => exact head

/-- What goes on behind the taken characters of a token decides whether trivia begins. -/
lemma isTrivial_goesOn (goesOn : GoesOn rest rest') (h : IsTrivial c (cs ++ rest')) :
    IsTrivial c (cs ++ rest) := by
  rcases h with space | ⟨slash, slash'⟩
  · exact .inl space
  · refine .inr ⟨slash, ?_⟩
    cases cs with
    | nil => exact not_not.1 fun other => goesOn.head?_ne rfl other slash'
    | cons => exact slash'

/-- A token stands at a place of the text. With spacing put there the text has the same tokens. -/
lemma scan_spacing (h : IsSpacing spacing) {t : Token} (mem : t ∈ Cursor.tokens ⟨n, cs⟩) :
    ∃ front back, cs = front ++ back ∧ t.span.start = n + front.length ∧
      Token.scan (front ++ (spacing ++ back)) = Token.scan cs := by
  induction len : cs.length using Nat.strongRecOn generalizing n cs with
  | ind len ih =>
    subst len
    rcases triviaFirst cs with none | ⟨trivia, c, rest, skipped, rfl, noTrivia⟩
    · rw [tokens_of_trivia none] at mem
      cases mem
    · rw [skipped.tokens, tokens_of_lexeme noTrivia] at mem
      rcases List.mem_cons.1 mem with rfl | mem
      · refine ⟨trivia, c :: rest, rfl, rfl, ?_⟩
        rw [skipped.scan, h.1.scan, skipped.scan]
      · have more : (lexeme c rest).rest ≠ [] := fun nil => by
          rw [nil, tokens_nil] at mem
          cases mem
        obtain ⟨taken, whole, width, split⟩ := splitsOff_lexeme c rest more
        have shorter : (lexeme c rest).rest.length < (trivia ++ c :: rest).length := by
          have := lexeme_rest_length_le c rest
          simp only [List.length_append, List.length_cons]
          omega
        -- The spacing is further on, where the text goes on as before or with a blank.
        obtain ⟨front, back, eq, start, same⟩ := ih _ shorter mem rfl
        have goesOn : GoesOn (lexeme c rest).rest (front ++ (spacing ++ back)) := by
          rw [eq]
          cases front with
          | nil => exact h.goesOn
          | cons => exact .inl rfl
        have noTrivia' : ¬ IsTrivial c (taken ++ (front ++ (spacing ++ back))) := fun trivial =>
          noTrivia (whole ▸ isTrivial_goesOn goesOn trivial)
        refine ⟨trivia ++ c :: (taken ++ front), back, ?_, ?_, ?_⟩
        · simp only [List.append_assoc, List.cons_append]
          rw [← eq, ← whole]
        · rw [start, width]
          simp only [List.length_append, List.length_cons]
          omega
        · simp only [List.append_assoc, List.cons_append]
          rw [skipped.scan, skipped.scan, Token.scan_of_lexeme noTrivia', split _ goesOn,
            Token.scan_of_lexeme noTrivia, same]

/-- A text that was spaced out scans as before. -/
lemma Spaced.scan {source source' : String} (h : Spaced source source') :
    Token.scan source'.toList = Token.scan source.toList := by
  obtain ⟨t, mem, noEof, spacing, isSpacing, eq⟩ := h
  have mem : t ∈ Cursor.tokens ⟨0, source.toList⟩ := by
    rcases List.mem_append.1 mem with mem | mem
    · exact mem
    · exact absurd (congrArg Token.kind (List.mem_singleton.1 mem)) noEof
  obtain ⟨front, back, whole, start, same⟩ := scan_spacing isSpacing mem
  have start : t.span.start = front.length := start.trans (Nat.zero_add _)
  rw [eq, whole, start, List.take_left, List.drop_left, List.append_assoc, same, whole]

/-- The tokens of a source are those of its text, and the marker of its end. -/
lemma Token.map_shape_ofSource (source : String) :
    (ofSource source).map shape = scan source.toList ++ [(eof 0).shape] := by
  rw [ofSource, List.map_append, Cursor.ofSource, shape_tokens]
  rfl

/-- Spacing in front of tokens changes only where the tokens stand, however often it is put in. -/
theorem Token.ofSource_layout {source source' : String}
    (h : Relation.ReflTransGen Spaced source source') :
    (ofSource source').map shape = (ofSource source).map shape := by
  induction h with
  | refl => rfl
  | tail _ step ih => rw [map_shape_ofSource, step.scan, ← map_shape_ofSource, ih]

end Insertion

/-- A sum without spacing. -/
def plainSum : String := "1+2"

/-- The same sum with a comment behind its first operand and a tab before the second. -/
def spacedSum : String := "1 // one\n+\t2"

/-- The sum is spaced out step by step. -/
lemma spaced_sum : Relation.ReflTransGen Spaced plainSum spacedSum := by
  have comment : IsSpacing [' ', '/', '/', ' ', 'o', 'n', 'e', '\n'] :=
    ⟨.blank rfl (@IsTrivia.comment [' ', 'o', 'n', 'e'] [] (by decide) .nil), ' ', rfl, rfl⟩
  have tab : IsSpacing ['\t'] := ⟨.blank rfl .nil, '\t', rfl, rfl⟩
  have first : Spaced plainSum "1 // one\n+2" :=
    ⟨⟨.plus, "+", ⟨1, 2⟩⟩, by decide +kernel, by decide, _, comment, by decide⟩
  have second : Spaced "1 // one\n+2" spacedSum :=
    ⟨⟨.int, "2", ⟨10, 11⟩⟩, by decide +kernel, by decide, _, tab, by decide⟩
  exact (Relation.ReflTransGen.single first).tail second

end Monkey
