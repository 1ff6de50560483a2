import Mathlib.Tactic.Lemma
import Monkey.Proofs.Parser.Acceptance
import Monkey.Proofs.Parser.Wall

/-!
# Recovery

A statement that breaks off is left out, and reading goes on behind it. Where it goes on is decided
by semicolons, by keywords of statements and by the braces that are open, and so texts can be read
in parts. A semicolon outside all braces always divides a text in two that are read independently.
A keyword does so unless the statement in front of it has nothing left to break off at: it breaks
off at the keyword then, and the keyword is skipped with it. Main statements: `segments_semicolon`,
`segments_keyword`, `Reading.ofTokens_semicolon` and `Reading.statements_keyword_iff`.
-/

namespace Monkey.Parser

open Grammar

/-- The failures of the statements that break off, in order; each has the number of tokens from the
one at fault to the end. -/
def failures (ts : List Token) : List Failure :=
  match ts with
  | [] => []
  | t :: rest =>
    match statement (t :: rest) with
    | .ok ⟨_, rest', _⟩ => failures rest'
    | .error failure =>
      have : (resume (t :: rest) failure.left).length < (t :: rest).length :=
        resume_length_lt (List.cons_ne_nil _ _) failure.left
      failure :: failures (resume (t :: rest) failure.left)
termination_by ts.length
decreasing_by all_goals assumption

/-- Whatever statement breaks off does so at one of the tokens, not for want of them. -/
def FailsWithin (ts : List Token) : Prop := ∀ f ∈ failures ts, 0 < f.left

instance : DecidablePred FailsWithin := fun ts =>
  inferInstanceAs (Decidable (∀ f ∈ failures ts, 0 < f.left))

variable {v v' us w c P rest : List Token} {s t stop stop' : Token} {depth : Nat} {fault : Fault}

section Steps

/-- No tokens, no failures. -/
lemma failures_nil : failures [] = [] := by
  rw [failures]

/-- No tokens, no segments. -/
lemma segments_nil : segments stop [] = [] := by
  rw [segments]

/-- Some tokens are at least one segment. -/
lemma length_segments_pos (stop : Token) (some : c ≠ []) : 0 < (segments stop c).length := by
  cases c with
  | nil => exact absurd rfl some
  | cons t c =>
    rw [segments]
    split <;> exact Nat.succ_pos _

/-- The failures are those behind a statement that is read. -/
lemma failures_of_reads {stmt : Stmt} (read : Reads (statement us) stmt rest) :
    failures us = failures rest := by
  have lt := read.shorter
  obtain ⟨⟨value, rest, shorter⟩, eq, rfl, rfl⟩ := read
  cases us with
  | nil => exact absurd lt (Nat.not_lt_zero _)
  | cons t ts =>
    rw [failures, eq]
    rfl

/-- A statement that breaks off is a failure, in front of those where reading goes on. -/
lemma failures_of_fails (some : c ++ rest ≠ []) (run : statement (c ++ rest) = fail fault rest) :
    failures (c ++ rest) = ⟨fault, rest.length⟩ :: failures (resume (c ++ rest) rest.length) := by
  obtain ⟨t, ts, eq⟩ := List.exists_cons_of_ne_nil some
  rw [eq] at run ⊢
  rw [failures, run]
  rfl

/-- A statement that breaks off is a segment with its diagnostic, in front of those further on. -/
lemma segments_of_fails (stop : Token) (some : c ++ rest ≠ [])
    (run : statement (c ++ rest) = fail fault rest) :
    segments stop (c ++ rest) = .error (fault.diagnostic (rest.headD stop)) ::
      segments stop (resume (c ++ rest) rest.length) := by
  have left : (c ++ rest).drop ((c ++ rest).length - rest.length) = rest := by simp
  obtain ⟨t, ts, eq⟩ := List.exists_cons_of_ne_nil some
  rw [eq] at run left ⊢
  rw [segments, run]
  simp only [fail, left]

/-- Reading does not go on where it broke off at the end. -/
lemma resume_nil : resume c 0 = [] := by
  simp [resume]

/-- Behind a fault reading goes on where the braces that were open are closed. -/
lemma resume_cons :
    resume (c ++ t :: rest) (t :: rest).length = skip (c.foldl braceDepth 0) t rest := by
  simp [resume]

/-- Behind a fault at the first token no braces are open. -/
lemma resume_all : resume (t :: rest) (t :: rest).length = skip 0 t rest := by
  simp [resume]

/-- Tokens that leave no brace open may be passed over. -/
lemma resume_append (none : c.foldl braceDepth 0 = 0) :
    resume (c ++ rest) rest.length = resume rest rest.length := by
  simp [resume, none]

/-- A semicolon begins no statement. -/
lemma statement_semicolon (kind : s.kind = .semicolon) :
    statement (s :: P) = fail .noExpression (s :: P) := by
  have none : operand (s :: P) = fail .noExpression (s :: P) :=
    operand_wall (next_cons.2 (.inl kind))
  rw [statement, expression, none]
  · rfl
  all_goals
    rintro _ _ _ eq
    cases eq
    cases kind

/-- A semicolon outside all braces ends what is skipped. -/
lemma skip_semicolon (kind : s.kind = .semicolon) : skip 0 s P = P := by
  cases P with
  | nil => rfl
  | cons t P => exact if_pos ⟨kind, rfl⟩

/-- A keyword of a statement ends what is skipped outside all braces. -/
lemma skip_keyword (none : braceDepth depth t = 0)
    (words : Next (fun k => k = .letWord ∨ k = .returnWord) v) : skip depth t v = v := by
  cases v with
  | nil => rfl
  | cons k v => simp [skip, none, next_cons.1 words]

end Steps

/-- Skipped tokens end at a wall, whatever is behind it. -/
lemma skip_onward (walls : Walls v v') (closes : Closes depth (t :: us)) :
    Onward v v' 0 us (skip depth t (us ++ v)) (skip depth t (us ++ v')) := by
  have inner : Closes (braceDepth depth t) us := closes.2
  induction us generalizing depth t with
  | nil =>
    -- The wall is next, and it is reached outside of braces.
    have none : braceDepth depth t = 0 := inner
    have here : Onward v v' 0 [] v v' := .before (.rest (r := []) List.suffix_rfl rfl)
    cases walls with
    | @semicolon s P P' kind =>
      have notWord : ¬ (s.kind = .letWord ∨ s.kind = .returnWord) := by simp [kind]
      by_cases done : t.kind = .semicolon ∧ depth = 0
      · simpa [skip, done] using here
      · simp only [List.nil_append, skip, if_neg done, notWord, and_false, if_false, none,
          skip_semicolon kind]
        exact .past rfl kind rfl rfl
    | keyword words words' =>
      rw [List.nil_append, List.nil_append, skip_keyword none words, skip_keyword none words']
      exact here
  | cons t' us ih =>
    simp only [List.cons_append, skip]
    split
    · rename_i done
      have none : braceDepth depth t = 0 := by
        rw [braceDepth_other (by simp [done.1, IsBrace]), done.2]
      exact .before (.rest (r := t' :: us) List.suffix_rfl (none ▸ inner))
    · split
      · rename_i done
        exact .before (.rest (r := t' :: us) List.suffix_rfl (done.1 ▸ inner))
      · exact (ih inner inner.2).mono (List.suffix_cons t' us)

/-- Reading two texts up to walls that look alike, one step at a time: either the same segment comes
first, or a statement breaks off at the walls. -/
lemma segments_step (stop stop' : Token) (walls : Walls v v') (closes : Closes 0 us)
    (some : us ≠ []) :
    (∃ segment r rest rest', r.length < us.length ∧ Onward v v' 0 r rest rest' ∧
      segments stop (us ++ v) = segment :: segments stop rest ∧
      segments stop' (us ++ v') = segment :: segments stop' rest' ∧
      (FailsWithin (us ++ v') ↔ FailsWithin rest')) ∨
    ∃ fault, statement (us ++ v) = fail fault v ∧ statement (us ++ v') = fail fault v' := by
  have run := statement_walled walls closes some
  generalize eq : statement (us ++ v) = x, eq' : statement (us ++ v') = y at run
  cases run with
  | @reads _ _ stmt _ rest' rests read read' =>
    have lt := read.shorter
    have within : FailsWithin (us ++ v') ↔ FailsWithin rest' := by
      rw [FailsWithin, failures_of_reads (eq' ▸ read'), FailsWithin]
    refine .inl ⟨.ok stmt, ?_⟩
    cases rests with
    | before rests =>
      cases rests with
      | @rest r _ closes =>
        refine ⟨r, _, _, ?_, .before (.rest List.suffix_rfl closes), segments_of_reads (eq ▸ read),
          segments_of_reads (eq' ▸ read'), within⟩
        simpa using lt
    | past none kind same same' =>
      exact ⟨[], _, _, List.length_pos_iff.2 some, .past none kind same same',
        segments_of_reads (eq ▸ read), segments_of_reads (eq' ▸ read'), within⟩
  -- It breaks off at the walls, or before them; then the same is skipped in both texts.
  | @fails fault r le =>
    obtain ⟨c, rfl⟩ := le
    cases r with
    | nil => exact .inr ⟨fault, rfl, rfl⟩
    | cons t r =>
      rw [List.append_assoc] at eq eq' ⊢
      rw [List.append_assoc]
      have step := segments_of_fails stop (by simp) eq
      have step' := segments_of_fails stop' (by simp) eq'
      have failed := failures_of_fails (by simp) eq'
      rw [List.cons_append, resume_cons] at step step' failed
      refine .inl ⟨_, r, _, _, ?_, skip_onward walls closes.foldl, step, step', ?_⟩
      · simp only [List.length_append, List.length_cons]
        omega
      · simp [FailsWithin, failed]

/-- A semicolon outside all braces divides a text in two that are read one after the other. -/
lemma segments_semicolon (stop stop' : Token) (closes : Closes 0 w) (kind : s.kind = .semicolon) :
    segments stop (w ++ s :: P) = segments stop' (w ++ [s]) ++ segments stop P := by
  induction n : w.length using Nat.strongRecOn generalizing w with
  | ind n ih =>
    subst n
    -- A statement that breaks off at the semicolon skips that, and with it nothing behind.
    have atSemicolon {fault P stop} (some : w ++ s :: P ≠ [])
        (run : statement (w ++ s :: P) = fail fault (s :: P)) :
        segments stop (w ++ s :: P) = .error (fault.diagnostic s) :: segments stop P := by
      have none : w.foldl braceDepth 0 = 0 := Closes.foldl (w := []) (by rwa [List.append_nil])
      rw [segments_of_fails stop some run, resume_cons, none, skip_semicolon kind]
      rfl
    cases w with
    | nil =>
      rw [atSemicolon (by simp) (statement_semicolon kind), atSemicolon (by simp)
        (statement_semicolon kind), segments_nil]
      rfl
    | cons t w =>
      rcases segments_step stop stop' (.semicolon kind : Walls (s :: P) [s])
        closes (List.cons_ne_nil t w) with
        ⟨segment, r, rest, rest', lt, onward, eq, eq', _⟩ | ⟨fault, run, run'⟩
      · rw [eq, eq']
        cases onward with
        | before rests =>
          cases rests with
          | rest le closes =>
            rw [ih _ (Nat.lt_of_le_of_lt le.length_le lt) closes rfl]
            rfl
        | past _ _ same same' =>
          cases same
          cases same'
          rw [segments_nil]
          rfl
      · rw [atSemicolon (by simp) run, atSemicolon (by simp) run', segments_nil]
        rfl

/-- A keyword of a statement outside all braces divides a text in two that are read one after the
other, unless a statement in front of it breaks off at the keyword, which is skipped then. -/
lemma segments_keyword (stop stop' : Token) (closes : Closes 0 w)
    (words : Next (fun k => k = .letWord ∨ k = .returnWord) v) :
    (FailsWithin w ∧ segments stop (w ++ v) = segments stop' w ++ segments stop v) ∨
      ¬ FailsWithin w ∧ ∃ done, ∃ fault : Fault,
        segments stop (w ++ v) = done ++ .error (fault.diagnostic (v.headD stop)) ::
          segments stop (resume v v.length) ∧
        segments stop' w = done ++ [.error (fault.diagnostic stop')] := by
  induction n : w.length using Nat.strongRecOn generalizing w with
  | ind n ih =>
    subst n
    cases w with
    | nil =>
      refine .inl ⟨?_, ?_⟩
      · intro f mem
        rw [failures_nil] at mem
        cases mem
      · rw [segments_nil]
        rfl
    | cons t w =>
      have step := segments_step stop stop' (.keyword words next_nil) closes
        (List.cons_ne_nil t w)
      rw [List.append_nil] at step
      rcases step with ⟨segment, r, rest, rest', lt, onward, eq, eq', within⟩ | ⟨fault, run, run'⟩
      · rw [eq, eq', within]
        cases onward with
        | past _ _ _ same => cases same
        | before rests =>
          cases rests with
          | @rest r' le closes =>
            rw [List.append_nil]
            rcases ih _ (Nat.lt_of_le_of_lt le.length_le lt) closes rfl with
              ⟨within, eq⟩ | ⟨not, done, fault, eq, eq'⟩
            · exact .inl ⟨within, congrArg (segment :: ·) eq⟩
            · exact .inr ⟨not, segment :: done, fault, congrArg (segment :: ·) eq,
                congrArg (segment :: ·) eq'⟩
      -- The statement breaks off at the keyword: alone it does so at the end.
      · have none : (t :: w).foldl braceDepth 0 = 0 :=
          Closes.foldl (w := []) (by rwa [List.append_nil])
        have run' : statement (t :: w ++ []) = fail fault [] := by rwa [List.append_nil]
        have failed := failures_of_fails (by simp) run'
        have eq := segments_of_fails stop (by simp) run
        have eq' := segments_of_fails stop' (by simp) run'
        rw [resume_append none] at eq eq'
        rw [List.append_nil] at failed eq'
        refine .inr ⟨fun within => ?_, [], fault, eq, ?_⟩
        · have some := within ⟨fault, 0⟩ (failed ▸ List.mem_cons_self)
          exact absurd some (Nat.lt_irrefl 0)
        · rw [eq', List.length_nil, resume_nil, segments_nil]
          rfl

/-- Skipping ends behind a semicolon or before a keyword of a statement, where no brace is open. -/
lemma skip_lands (closes : Closes depth (t :: us)) :
    ∃ c s, t :: us = c ++ s :: skip depth t us ∧
      (s.kind = .semicolon ∧ c.foldl braceDepth depth = 0 ∨
        (c ++ [s]).foldl braceDepth depth = 0 ∧
          Next (fun k => k = .letWord ∨ k = .returnWord) (skip depth t us)) := by
  induction us generalizing depth t with
  | nil => exact ⟨[], t, rfl, .inr ⟨closes.2, next_nil⟩⟩
  | cons t' us ih =>
    simp only [skip]
    split
    · rename_i done
      exact ⟨[], t, rfl, .inl done⟩
    · split
      · rename_i done
        exact ⟨[], t, rfl, .inr ⟨done.1, next_cons.2 done.2⟩⟩
      · obtain ⟨c, s, eq, lands⟩ := ih closes.2
        exact ⟨t :: c, s, congrArg (t :: ·) eq, lands⟩

/-- Of an accepted text, recovery at the first token leaves out at least one statement. -/
lemma length_segments_skip_lt (stop : Token) (program : IsProgram (t :: us)) :
    (segments stop (skip 0 t us)).length < (segments stop (t :: us)).length := by
  obtain ⟨statements, derives⟩ := program.derives
  have accepted : segments stop (t :: us) = statements.map .ok := segments_of_derives derives
  have closes : Closes 0 (t :: us) := program.closed.closes
  obtain ⟨c, s, eq, ⟨kind, none⟩ | ⟨none, words⟩⟩ := skip_lands closes
  · rw [eq] at closes ⊢
    have split := segments_semicolon stop stop (P := skip 0 t us)
      (closes.front none) kind
    have some := length_segments_pos stop (c := c ++ [s]) (by simp)
    rw [split, List.length_append]
    omega
  · rw [List.append_cons] at eq
    rw [eq] at closes
    rcases segments_keyword stop stop (closes.front none) words with
      ⟨_, split⟩ | ⟨_, done, fault, failed, _⟩
    · have some := length_segments_pos stop (c := c ++ [s]) (by simp)
      rw [eq, split, List.length_append]
      omega
    · rw [← eq, accepted] at failed
      have mem : .error (fault.diagnostic ((skip 0 t us).headD stop)) ∈
          (statements.map .ok : List (Except Diagnostic Stmt)) := by
        rw [failed]
        simp
      simp at mem

end Monkey.Parser

namespace Monkey

open Monkey.Parser Monkey.Grammar

/-- Tokens with an end marker among them have a first one. -/
lemma Token.exists_first_eof (ts : List Token) (some : ∃ t ∈ ts, t.kind = .eof) :
    ∃ (w : List Token) (marker : Token) (rest : List Token),
      ts = w ++ marker :: rest ∧ (∀ t ∈ w, t.kind ≠ .eof) ∧ marker.kind = .eof := by
  induction ts with
  | nil => simp at some
  | cons t ts ih =>
    by_cases first : t.kind = .eof
    · exact ⟨[], t, ts, rfl, by simp, first⟩
    · obtain ⟨w, marker, rest, rfl, noEof, isEof⟩ := ih (by simpa [first] using some)
      exact ⟨t :: w, marker, rest, rfl, by simpa [first] using noEof, isEof⟩

namespace Reading

variable {w P : List Token} {s k marker e : Token}

/-- What is read ahead of some tokens does not decide where the text ends. -/
lemma ofTokens_ahead (isEof : e.kind = .eof) (P : List Token) :
    ∃ v stop, ∀ u : List Token, (∀ t ∈ u, t.kind ≠ .eof) →
      ofTokens (u ++ (P ++ [e])) = ofSegments (segments stop (u ++ v)) := by
  obtain ⟨v, stop, rest, eq, noEof, isStop⟩ :=
    Token.exists_first_eof (P ++ [e]) ⟨e, by simp, isEof⟩
  refine ⟨v, stop, fun u noEof' => ?_⟩
  have both : ∀ t ∈ u ++ v, t.kind ≠ .eof := by
    intro t mem
    rcases List.mem_append.1 mem with mem | mem
    · exact noEof' t mem
    · exact noEof t mem
  rw [eq, ← List.append_assoc]
  simp only [ofTokens, Token.untilEof_append both isStop]

/-- Tokens up to a marker are read as their segments. -/
lemma ofTokens_marked (noEof : ∀ t ∈ w, t.kind ≠ .eof) (isEof : marker.kind = .eof) :
    ofTokens (w ++ [marker]) = ofSegments (segments marker w) := by
  simp only [ofTokens, Token.untilEof_append noEof isEof]

/-- A token that is no marker may be put behind. -/
lemma noEof_concat (noEof : ∀ t ∈ w, t.kind ≠ .eof) (other : s.kind ≠ .eof) :
    ∀ t ∈ w ++ [s], t.kind ≠ .eof := by
  intro t mem
  rcases List.mem_append.1 mem with mem | mem
  · exact noEof t mem
  · rwa [List.mem_singleton.1 mem]

/-- What is read from segments one behind the other stands one behind the other. -/
lemma ofSegments_append (xs ys : List (Except Diagnostic Stmt)) :
    (ofSegments (xs ++ ys)).program.statements =
        (ofSegments xs).program.statements ++ (ofSegments ys).program.statements ∧
      (ofSegments (xs ++ ys)).diagnostics =
        (ofSegments xs).diagnostics ++ (ofSegments ys).diagnostics :=
  ⟨List.filterMap_append, List.filterMap_append⟩

/-- A diagnostic in front adds no statement. -/
lemma ofSegments_error (d : Diagnostic) (xs : List (Except Diagnostic Stmt)) :
    (ofSegments (.error d :: xs)).program.statements = (ofSegments xs).program.statements :=
  rfl

/-- There are no more statements than segments. -/
lemma length_statements_le (xs : List (Except Diagnostic Stmt)) :
    (ofSegments xs).program.statements.length ≤ xs.length :=
  List.length_filterMap_le _ xs

/-- A semicolon outside all braces is a wall. However many statements break off before it, what
stands behind it is read as if it stood alone: the statements and the diagnostics of the whole are
those of the two parts. -/
theorem ofTokens_semicolon (balanced : Balanced w) (noEof : ∀ t ∈ w, t.kind ≠ .eof)
    (kind : s.kind = .semicolon) (isMarker : marker.kind = .eof) (isEof : e.kind = .eof) :
    (ofTokens (w ++ s :: (P ++ [e]))).program.statements =
        (ofTokens (w ++ [s, marker])).program.statements ++
          (ofTokens (P ++ [e])).program.statements ∧
      (ofTokens (w ++ s :: (P ++ [e]))).diagnostics =
        (ofTokens (w ++ [s, marker])).diagnostics ++ (ofTokens (P ++ [e])).diagnostics := by
  obtain ⟨v, stop, ahead⟩ := ofTokens_ahead isEof P
  have noEof := noEof_concat noEof (s := s) (by simp [kind])
  have whole : ofTokens (w ++ s :: (P ++ [e])) = ofSegments (segments stop (w ++ s :: v)) := by
    rw [List.append_cons, ahead _ noEof, ← List.append_cons]
  have front : ofTokens (w ++ [s, marker]) = ofSegments (segments marker (w ++ [s])) := by
    rw [List.append_cons, ofTokens_marked noEof isMarker]
  have back : ofTokens (P ++ [e]) = ofSegments (segments stop v) := ahead [] (by simp)
  rw [whole, front, back, segments_semicolon stop marker balanced.closes kind]
  exact ofSegments_append _ _

/-- The tokens of `let x = { ) ; }`, which break off at the opening brace. -/
def brokenBinding : List Token :=
  [⟨.letWord, "let", .nowhere⟩, ⟨.identifier, "x", .nowhere⟩, ⟨.assign, "=", .nowhere⟩,
    ⟨.leftBrace, "\x7b", .nowhere⟩, ⟨.rightParen, ")", .nowhere⟩, ⟨.semicolon, ";", .nowhere⟩,
    ⟨.rightBrace, "\x7d", .nowhere⟩]

/-- What stands behind the semicolon after a broken binding is read. -/
theorem ofTokens_brokenBinding :
    Balanced brokenBinding ∧ (∀ t ∈ brokenBinding, t.kind ≠ .eof) ∧
      (ofTokens (brokenBinding ++ ⟨.semicolon, ";", .nowhere⟩ ::
          ([⟨.identifier, "y", .nowhere⟩] ++ [Token.eof 0]))).program.statements =
        (ofTokens (brokenBinding ++
            [⟨.semicolon, ";", .nowhere⟩, Token.eof 0])).program.statements ++
          (ofTokens ([⟨.identifier, "y", .nowhere⟩] ++ [Token.eof 0])).program.statements := by
  have balanced : Balanced brokenBinding := by decide
  have noEof : ∀ t ∈ brokenBinding, t.kind ≠ .eof := by decide
  exact ⟨balanced, noEof, (ofTokens_semicolon balanced noEof rfl rfl rfl).1⟩

/-- A keyword of a statement outside all braces, from which on the text is accepted, is read as if
it stood at the beginning, exactly if no statement in front of it breaks off for want of tokens. A
statement that does would break off at the keyword, which is then skipped with the statement that it
begins. -/
theorem statements_keyword_iff (balanced : Balanced w) (noEof : ∀ t ∈ w, t.kind ≠ .eof)
    (word : k.kind = .letWord ∨ k.kind = .returnWord) (isMarker : marker.kind = .eof)
    (isEof : e.kind = .eof) (accepted : (ofTokens (k :: (P ++ [e]))).diagnostics = []) :
    (ofTokens (w ++ k :: (P ++ [e]))).program.statements =
        (ofTokens (w ++ [marker])).program.statements ++
          (ofTokens (k :: (P ++ [e]))).program.statements ↔
      FailsWithin w := by
  obtain ⟨v, stop, ahead⟩ := ofTokens_ahead isEof P
  have keyword : k.kind ≠ .eof := by
    rcases word with word | word <;> simp [word]
  have whole : ofTokens (w ++ k :: (P ++ [e])) = ofSegments (segments stop (w ++ k :: v)) := by
    rw [List.append_cons, ahead _ (noEof_concat noEof keyword), ← List.append_cons]
  have front := ofTokens_marked noEof isMarker
  have back : ofTokens (k :: (P ++ [e])) = ofSegments (segments stop (k :: v)) :=
    ahead [k] (by simpa using keyword)
  rw [back] at accepted
  obtain ⟨statements, derives⟩ := derives_of_segments accepted
  rw [whole, front, back]
  rcases segments_keyword stop marker balanced.closes (next_cons.2 word) with
    ⟨within, split⟩ | ⟨not, done, fault, split, failed⟩
  · rw [split]
    exact iff_of_true (ofSegments_append _ _).1 within
  · refine iff_of_false (fun same => ?_) not
    -- There are too few statements: the first ones are the same, but others are left out.
    have fewer := length_segments_skip_lt stop derives.isProgram
    have read : segments stop (k :: v) = statements.map .ok := segments_of_derives derives
    have counted := congrArg List.length same
    rw [split, failed, read, ofSegments_ok, (ofSegments_append _ _).1, (ofSegments_append _ _).1,
      ofSegments_error, ofSegments_error, resume_all] at counted
    rw [read, List.length_map] at fewer
    have bound := length_statements_le (segments stop (skip 0 k v))
    have none : (ofSegments []).program.statements = [] := rfl
    simp only [List.length_append, none, List.length_nil] at counted
    omega

/-- The tokens of `let x =`, which break off for want of tokens. -/
def unfinishedBinding : List Token :=
  [⟨.letWord, "let", .nowhere⟩, ⟨.identifier, "x", .nowhere⟩, ⟨.assign, "=", .nowhere⟩]

/-- The tokens of `y = 2`. -/
def equation : List Token :=
  [⟨.identifier, "y", .nowhere⟩, ⟨.assign, "=", .nowhere⟩, ⟨.int, "2", .nowhere⟩]

/-- The keyword of a statement. -/
def letToken : Token := ⟨.letWord, "let", .nowhere⟩

/-- The tokens of `let y = 2` read as that binding. -/
lemma ofTokens_equation : ofTokens (letToken :: (equation ++ [Token.eof 0])) =
    ⟨⟨[.letStmt ⟨"y", .nowhere⟩ (.literal (.integer 2) .nowhere) .nowhere]⟩, []⟩ := by
  have two : Derives .call [⟨.int, "2", .nowhere⟩] (.literal (.integer 2) .nowhere) :=
    .integer rfl (by decide)
  have derives : DerivesStatements (letToken :: equation)
      [.letStmt ⟨"y", .nowhere⟩ (.literal (.integer 2) .nowhere) .nowhere] :=
    .bare (.letStmt rfl rfl rfl (two.loosen (by decide))) next_nil .none
  rw [← List.cons_append, ofTokens_marked (by decide) rfl, segments_of_derives derives,
    ofSegments_ok]

/-- A binding behind a broken one is read, although no semicolon stands between them. -/
theorem statements_brokenBinding :
    Balanced brokenBinding ∧ (∀ t ∈ brokenBinding, t.kind ≠ .eof) ∧
      (ofTokens (letToken :: (equation ++ [Token.eof 0]))).diagnostics = [] ∧
      (ofTokens (brokenBinding ++ letToken :: (equation ++ [Token.eof 0]))).program.statements =
        (ofTokens (brokenBinding ++ [Token.eof 0])).program.statements ++
          (ofTokens (letToken :: (equation ++ [Token.eof 0]))).program.statements := by
  have balanced : Balanced brokenBinding := by decide
  have noEof : ∀ t ∈ brokenBinding, t.kind ≠ .eof := by decide
  have accepted : (ofTokens (letToken :: (equation ++ [Token.eof 0]))).diagnostics = [] := by
    rw [ofTokens_equation]
  have within : FailsWithin brokenBinding := by
    have all : failures brokenBinding = [⟨.noExpression, 4⟩] := by cbv
    rw [FailsWithin, all]
    decide
  exact ⟨balanced, noEof, accepted,
    (statements_keyword_iff balanced noEof (.inl rfl) rfl rfl accepted).2 within⟩

/-- A binding behind an unfinished one is lost: nothing of `let x = let y = 2` is read. -/
theorem not_statements_unfinishedBinding :
    Balanced unfinishedBinding ∧ (∀ t ∈ unfinishedBinding, t.kind ≠ .eof) ∧
      (ofTokens (letToken :: (equation ++ [Token.eof 0]))).diagnostics = [] ∧
      (ofTokens (unfinishedBinding ++ letToken :: (equation ++ [Token.eof 0]))).program.statements ≠
        (ofTokens (unfinishedBinding ++ [Token.eof 0])).program.statements ++
          (ofTokens (letToken :: (equation ++ [Token.eof 0]))).program.statements := by
  have run : statement (unfinishedBinding ++ letToken :: equation) =
      fail .noExpression (letToken :: equation) := by cbv
  have skipped : resume (unfinishedBinding ++ letToken :: equation) (letToken :: equation).length =
      [] := by cbv
  have whole :
      (ofTokens (unfinishedBinding ++ letToken :: (equation ++ [Token.eof 0]))).program.statements =
        [] := by
    rw [← List.cons_append, ← List.append_assoc, ofTokens_marked (by decide) rfl,
      segments_of_fails _ (by decide) run, skipped, segments_nil]
    rfl
  refine ⟨by decide, by decide, by rw [ofTokens_equation], fun same => ?_⟩
  have counted := congrArg List.length same
  rw [whole, List.length_append, ofTokens_equation] at counted
  exact absurd counted (Nat.succ_ne_zero _).symm

end Reading

end Monkey
