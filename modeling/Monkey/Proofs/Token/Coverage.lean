import Monkey.Proofs.Token.Layout

/-!
# What the tokens of a text cover

Nothing of a text is lost in scanning, and nothing is made up: each token is spelled by the
characters under its span, the tokens stand one behind the other, and between them stands trivia
only. However often a further token is asked for behind the last one, there is the end marker. Main
statements: `Cursor.covers_tokens`, which follows the scanner along the text, and
`Token.ofSource_covers`, which says it of a source by offsets.
-/

namespace Monkey

open Cursor

/-- The characters of a text under a span. -/
def Span.slice (s : Span) (cs : List Char) : List Char := (cs.drop s.start).take s.length

/-- Under the span stands trivia. Only at the end of the text may the line of a comment not end. -/
def Span.IsSkipped (s : Span) (cs : List Char) : Prop :=
  IsTrivia (s.slice cs) ∨ s.stop = cs.length ∧ IsOpenTrivia (s.slice cs)

/-- How a lexeme of the kind is written in a text: a string has quotes around it. -/
def TokenKind.spell (kind : TokenKind) (lexeme : String) : List Char :=
  if kind = .string then '"' :: (lexeme.toList ++ ['"']) else lexeme.toList

/-- The stretches in front of each of the tokens, the first one from an offset on. -/
def Token.gaps (n : Nat) : List Token → List Span
  | [] => []
  | t :: ts => ⟨n, t.span.start⟩ :: gaps t.span.stop ts

namespace Cursor

/-- Where the text ends. -/
def stop (c : Cursor) : Nat := c.offset + c.rest.length

/-- The cursor once a token has been asked for so often. -/
def after (c : Cursor) : Nat → Cursor
  | 0 => c
  | count + 1 => c.next.2.after count

/-- From an offset on, the tokens take up the text but for trivia in front of each and at its
end. -/
inductive Covers : Nat → List Char → List Token → Prop where
  | trivia {n cs} :
    IsTrivia cs ∨ IsOpenTrivia cs →
    Covers n cs []
  | token {n trivia start kind lexeme stop rest ts} :
    IsTrivia trivia →
    start = n + trivia.length →
    kind.spell lexeme ≠ [] →
    stop = start + (kind.spell lexeme).length →
    Covers stop rest ts →
    Covers n (trivia ++ (kind.spell lexeme ++ rest)) (⟨kind, lexeme, ⟨start, stop⟩⟩ :: ts)

section Lexeme

variable {c : Char} {cs : List Char}

/-- No word is a text in quotation marks. -/
lemma ofWord_ne_string (word : String) : TokenKind.ofWord word ≠ .string := by
  unfold TokenKind.ofWord TokenKind.ofKeyword?
  split <;> nofun

/-- No mark is a text in quotation marks. -/
lemma punctuation?_ne_string (c : Char) : (punctuation? c).getD .illegal ≠ .string := by
  unfold punctuation?
  split <;> nofun

/-- A lexeme is spelled by the characters that it takes off the text. -/
lemma spell_lexeme (c : Char) (cs : List Char) :
    (lexeme c cs).kind.spell (lexeme c cs).text ++ (lexeme c cs).rest = c :: cs ∧
      (lexeme c cs).width = ((lexeme c cs).kind.spell (lexeme c cs).text).length := by
  unfold lexeme
  split
  · rename_i quote
    have whole : cs.takeWhile (· != '"') ++ cs.dropWhile (· != '"') = cs :=
      List.takeWhile_append_dropWhile
    have ends := List.head?_dropWhile_not (· != '"') cs
    unfold string
    split
    · rename_i behind
      rw [behind, List.append_nil] at whole
      simp [TokenKind.spell, whole, quote]
    · rename_i c' rest behind
      rw [behind] at whole ends
      obtain rfl : c' = '"' := by simpa using ends
      simp [TokenKind.spell, whole, quote]
  · split
    · simp [TokenKind.spell]
    · split
      · simp [TokenKind.spell, ofWord_ne_string]
      · split
        · simp [TokenKind.spell]
        · simp [TokenKind.spell]
        · simp [TokenKind.spell, punctuation?_ne_string]

/-- No lexeme is empty. -/
lemma spell_lexeme_ne_nil : (lexeme c cs).kind.spell (lexeme c cs).text ≠ [] := by
  intro nil
  have whole := (spell_lexeme c cs).1
  have shorter := lexeme_rest_length_le c cs
  rw [nil, List.nil_append] at whole
  rw [whole] at shorter
  exact absurd shorter (Nat.not_succ_le_self _)

end Lexeme

/-- The tokens of a text cover it. -/
theorem covers_tokens (n : Nat) (cs : List Char) : Covers n cs (tokens ⟨n, cs⟩) := by
  induction len : cs.length using Nat.strongRecOn generalizing n cs with
  | ind len ih =>
    subst len
    rcases triviaFirst cs with trivia | ⟨trivia, c, rest, skipped, rfl, noTrivia⟩
    · rw [tokens_of_trivia trivia]
      exact .trivia trivia
    · obtain ⟨whole, width⟩ := spell_lexeme c rest
      have shorter : (lexeme c rest).rest.length < (trivia ++ c :: rest).length := by
        have := lexeme_rest_length_le c rest
        simp only [List.length_append, List.length_cons]
        omega
      rw [skipped.tokens, tokens_of_lexeme noTrivia, ← whole]
      exact .token skipped rfl spell_lexeme_ne_nil (congrArg _ width) (ih _ shorter _ _ rfl)

namespace Covers

variable {n : Nat} {cs front : List Char} {ts : List Token}

/-- Tokens stand behind the beginning of the text they cover. -/
lemma le_start (h : Covers n cs ts) : ∀ t ∈ ts, n ≤ t.span.start := by
  induction h with
  | trivia => nofun
  | @token n trivia start _ _ stop _ ts _ hStart _ hStop _ ih =>
    refine List.forall_mem_cons.2 ⟨?_, fun t mem => ?_⟩
    · show n ≤ start
      omega
    · have := ih t mem
      omega

/-- The tokens stand one behind the other. -/
lemma pairwise (h : Covers n cs ts) : ts.Pairwise fun t t' => t.span.stop ≤ t'.span.start := by
  induction h with
  | trivia => exact .nil
  | token _ _ _ _ others ih => exact List.pairwise_cons.2 ⟨others.le_start, ih⟩

/-- A slice leaves out what stands in front and behind. -/
lemma slice_append (front body rest : List Char) :
    Span.slice ⟨front.length, front.length + body.length⟩ (front ++ (body ++ rest)) = body := by
  simp [Span.slice, Span.length]

/-- Each token stands in the text as it is spelled. -/
lemma of_mem (h : Covers front.length cs ts) :
    ∀ t ∈ ts, t.span.start < t.span.stop ∧ t.span.stop ≤ (front ++ cs).length ∧
      t.span.slice (front ++ cs) = t.kind.spell t.lexeme := by
  generalize eq : front.length = n at h
  induction h generalizing front with
  | trivia => nofun
  | @token n trivia start kind lexeme stop rest ts _ hStart nonempty hStop _ ih =>
    have width : 0 < (kind.spell lexeme).length := List.length_pos_iff.2 nonempty
    have before : (front ++ trivia).length = start := by rw [List.length_append, eq, hStart]
    have behind : ((front ++ trivia) ++ kind.spell lexeme).length = stop := by
      rw [List.length_append, before, hStop]
    have whole : front ++ (trivia ++ (kind.spell lexeme ++ rest)) =
        ((front ++ trivia) ++ kind.spell lexeme) ++ rest := by
      simp only [List.append_assoc]
    rw [whole]
    refine List.forall_mem_cons.2 ⟨⟨?_, ?_, ?_⟩, ih behind⟩
    · show start < stop
      omega
    · rw [List.length_append, behind]
      exact Nat.le_add_right _ _
    · rw [List.append_assoc, hStop, ← before]
      exact slice_append _ _ _

/-- In front of each token stands trivia, and at the end of the text. -/
lemma isSkipped (h : Covers front.length cs ts) :
    ∀ gap ∈ Token.gaps front.length (ts ++ [.eof (front ++ cs).length]),
      gap.IsSkipped (front ++ cs) := by
  generalize eq : front.length = n at h
  induction h generalizing front with
  | @trivia n cs trivia =>
    have slice : Span.slice ⟨n, (front ++ cs).length⟩ (front ++ cs) = cs := by
      simp [Span.slice, Span.length, ← eq]
    refine List.forall_mem_singleton.2 ?_
    show Span.IsSkipped ⟨n, (front ++ cs).length⟩ _
    rw [Span.IsSkipped, slice]
    exact trivia.imp_right fun isOpen => ⟨rfl, isOpen⟩
  | @token n trivia start kind lexeme stop rest ts skipped hStart _ hStop _ ih =>
    have behind : ((front ++ trivia) ++ kind.spell lexeme).length = stop := by
      rw [List.length_append, List.length_append, eq, hStop, hStart]
    have whole : front ++ (trivia ++ (kind.spell lexeme ++ rest)) =
        ((front ++ trivia) ++ kind.spell lexeme) ++ rest := by
      simp only [List.append_assoc]
    refine List.forall_mem_cons.2 ⟨.inl ?_, ?_⟩
    · show IsTrivia (Span.slice ⟨n, start⟩ _)
      rw [hStart, ← eq, slice_append]
      exact skipped
    · rw [whole]
      exact ih behind

end Covers

section Calls

variable {c c' : Cursor} {t : Token}

/-- If a token is next, the cursor gives it. -/
lemma next_of_next? (h : c.next? = some (t, c')) : c.next = (t, c') := by
  rw [next, h]

/-- Trivia leave the end of the text where it was. -/
lemma stop_skipTrivia (inComment : Bool) (n : Nat) (cs : List Char) :
    (skipTrivia inComment n cs).stop = n + cs.length := by
  induction cs generalizing inComment n with
  | nil => rfl
  | cons c cs ih =>
    unfold skipTrivia
    split
    · rw [ih, List.length_cons, Nat.add_right_comm, Nat.add_assoc]
    · split
      · rw [ih, List.length_cons, Nat.add_right_comm, Nat.add_assoc]
      · split
        · rw [ih, List.length_cons, Nat.add_right_comm, Nat.add_assoc]
        · rfl

/-- A token leaves the end of the text where it is. -/
lemma stop_next? (h : c.next? = some (t, c')) : c'.stop = c.stop := by
  have skipped : c.afterTrivia.stop = c.stop := stop_skipTrivia false c.offset c.rest
  unfold next? at h
  split at h
  · cases h
  · rename_i start first cs eq
    obtain ⟨whole, width⟩ := spell_lexeme first cs
    have whole := congrArg List.length whole
    cases h
    rw [← skipped, eq, stop, stop, width]
    simp only [List.length_append] at whole ⊢
    omega

/-- Where no token is left, there is the end marker. -/
lemma next_of_none (h : c.next? = none) : c.next = (.eof c.stop, ⟨c.stop, []⟩) := by
  have nothing := next?_eq_none_iff.1 h
  have offset : c.afterTrivia.offset = c.stop := by
    have skipped : c.afterTrivia.stop = c.stop := stop_skipTrivia false c.offset c.rest
    rw [← skipped, stop, nothing]
    rfl
  rw [next, h, ← offset, ← nothing]

/-- Tokens asked for one after the other are those of the text, and then the end marker over and
over. -/
lemma take_eq (c : Cursor) (count : Nat) :
    c.take count =
      c.tokens.take count ++ List.replicate (count - c.tokens.length) (Token.eof c.stop) := by
  induction count generalizing c with
  | zero => simp [take]
  | succ count ih =>
    cases first : c.next? with
    | none =>
      rw [take, next_of_none first, ih, tokens_of_none first, tokens_nil]
      simp [stop, List.replicate_succ]
    | some r =>
      obtain ⟨t, c'⟩ := r
      rw [take, next_of_next? first, ih, tokens_of_next? first, stop_next? first]
      simp

/-- Asked for tokens one after the other, an iterator gives those of the text and then none. -/
lemma next?_after (c : Cursor) (count : Nat) :
    (c.after count).next?.map Prod.fst = c.tokens[count]? := by
  induction count generalizing c with
  | zero =>
    cases first : c.next? with
    | none => simp [after, first, tokens_of_none first]
    | some r => simp [after, first, tokens_of_next? first]
  | succ count ih =>
    cases first : c.next? with
    | none => rw [after, next_of_none first, ih, tokens_of_none first, tokens_nil]; simp
    | some r => rw [after, next_of_next? first, ih, tokens_of_next? first, List.getElem?_cons_succ]

end Calls

end Cursor

/-- The tokens of a source stand within it one behind the other, in front of the end marker. -/
lemma Token.ofSource_within (source : String) :
    ∃ ts, ofSource source = ts ++ [.eof source.length] ∧
      (∀ t ∈ ts, t.kind ≠ .eof ∧ t.span.start < t.span.stop ∧ t.span.stop ≤ source.length) ∧
      ts.Pairwise fun t t' => t.span.stop ≤ t'.span.start := by
  have covers :
      Cursor.Covers ([] : List Char).length source.toList (Cursor.ofSource source).tokens :=
    Cursor.covers_tokens 0 source.toList
  refine ⟨_, rfl, fun t mem => ⟨(isWritten_of_mem_tokens mem).noEof, ?_⟩, covers.pairwise⟩
  obtain ⟨nonempty, within, -⟩ := covers.of_mem t mem
  exact ⟨nonempty, String.length_toList ▸ within⟩

/-- The tokens of a source are those that its text can be taken apart into. -/
theorem Token.ofSource_covers (source : String) :
    ∃ ts, ofSource source = ts ++ [.eof source.length] ∧
      (∀ t ∈ ts, t.kind ≠ .eof ∧ t.span.start < t.span.stop ∧ t.span.stop ≤ source.length ∧
        t.span.slice source.toList = t.kind.spell t.lexeme) ∧
      ts.Pairwise (fun t t' => t.span.stop ≤ t'.span.start) ∧
      (∀ gap ∈ gaps 0 (ofSource source), gap.IsSkipped source.toList) ∧
      ∀ count,
        (Cursor.ofSource source).take count = (ofSource source).take count ++
          List.replicate (count - (ofSource source).length) (eof source.length) ∧
        ((Cursor.ofSource source).after count).next?.map Prod.fst = ts[count]? := by
  have covers :
      Cursor.Covers ([] : List Char).length source.toList (Cursor.ofSource source).tokens :=
    Cursor.covers_tokens 0 source.toList
  have length : source.toList.length = source.length := String.length_toList
  have stop : (Cursor.ofSource source).stop = source.length := by
    rw [Cursor.stop, Cursor.ofSource, length, Nat.zero_add]
  refine ⟨_, rfl, fun t mem => ⟨(isWritten_of_mem_tokens mem).noEof, ?_⟩, covers.pairwise, ?_,
    fun count => ⟨?_, Cursor.next?_after _ _⟩⟩
  · simpa only [List.nil_append, length] using covers.of_mem t mem
  · have skipped := covers.isSkipped
    rwa [List.nil_append, length] at skipped
  · rw [Cursor.take_eq, stop, ofSource, List.length_append, List.take_append, List.append_assoc]
    -- The end marker of the list is the first one that is asked for.
    cases more : count - (Cursor.ofSource source).tokens.length with
    | zero => simp [Nat.sub_add_eq, more]
    | succ k => simp [Nat.sub_add_eq, more, List.replicate_succ]

-- In front of a name, of an operator behind a comment, of a numeral, and at the end.
example : Token.gaps 0 (Token.ofSource "a // b\n+ 1 ") = [⟨0, 0⟩, ⟨1, 7⟩, ⟨8, 9⟩, ⟨10, 11⟩] := by
  decide +kernel

end Monkey
