import Mathlib.Tactic.Lemma
import Monkey.Proofs.Grammar.Spelled
import Monkey.Proofs.Parser.Acceptance
import Monkey.Proofs.Token.Scanned

/-!
# Rendering and reading again

The text of a program reads without a diagnostic, and the program that it reads as is known: it is
the program itself, up to spans, exactly if no statement runs into the next one. This holds of every
program whose names and constants can be written, however it was built; and those of a program that
was read from a text always can. Main statements: `Program.reads_rendering` and
`Reading.rendering_reads_iff`.
-/

namespace Monkey

open Grammar Monkey.Parser

namespace Grammar

/-- Parameters that derive from the tokens of a text are names. -/
lemma Parameters.areNames {w : List Token} {xs : List Identifier} (h : Parameters w xs)
    (written : ∀ t ∈ w, t.IsWritten) : ∀ x ∈ xs, IsName x.name := by
  induction h with
  | none => simp
  | last kind => simpa using (written _ List.mem_cons_self).identifier kind
  | more kind _ _ ih =>
    refine List.forall_mem_cons.2 ⟨(written _ List.mem_cons_self).identifier kind, ih ?_⟩
    exact fun t mem => written t (List.mem_cons_of_mem _ (List.mem_cons_of_mem _ mem))

/-- A semicolon changes nothing in a statement but its span. -/
lemma meets_endedBy {d : Demand} {s : Stmt} {stop : Span} (h : s.Meets d) :
    (s.endedBy stop).Meets d := by
  cases s <;> exact h

mutual

/-- What derives from the tokens of a text can be written in a text. -/
lemma Derives.writable {p : Precedence} {w : List Token} {e : Expr} : Derives p w e →
    (∀ t ∈ w, t.IsWritten) → e.Meets .writable
  | .tighter h, written => h.writable written
  | .binary left _ right, written => by
    simp only [List.forall_mem_append, List.forall_mem_cons] at written
    exact ⟨left.writable written.1, right.writable written.2.2⟩
  | .unary _ operand, written => operand.writable (List.forall_mem_cons.1 written).2
  | .call callee _ args _, written => by
    simp only [List.forall_mem_append, List.forall_mem_cons] at written
    exact ⟨callee.writable written.1, args.writable written.2.2.1⟩
  | .identifier kind, written => (written _ List.mem_cons_self).identifier kind
  | .integer kind found, written =>
    Numeral.int64?_nonneg ((written _ List.mem_cons_self).int kind) found
  | .string kind, written => (written _ List.mem_cons_self).string kind
  | .trueWord _, _ | .falseWord _, _ => trivial
  | .group _ inner _, written => by
    simp only [List.forall_mem_append, List.forall_mem_cons] at written
    exact inner.writable written.2.1
  | .conditional _ _ condition _ consequence, written => by
    simp only [List.forall_mem_append, List.forall_mem_cons] at written
    exact ⟨condition.writable written.2.2.1, consequence.writable written.2.2.2.2⟩
  | .alternative _ _ condition _ consequence _ alternative, written => by
    simp only [List.forall_mem_append, List.forall_mem_cons] at written
    obtain ⟨_, _, inCondition, _, inConsequence, _, inAlternative⟩ := written
    exact ⟨condition.writable inCondition, consequence.writable inConsequence,
      alternative.writable inAlternative⟩
  | .function _ _ params _ body, written => by
    simp only [List.forall_mem_append, List.forall_mem_cons] at written
    exact ⟨params.areNames written.2.2.1, body.writable written.2.2.2.2⟩

/-- Arguments that derive from the tokens of a text can be written. -/
lemma DerivesArguments.writable {w : List Token} {es : List Expr} : DerivesArguments w es →
    (∀ t ∈ w, t.IsWritten) → Expr.AllMeet .writable es
  | .none, _ => trivial
  | .last first, written => ⟨first.writable written, trivial⟩
  | .more first _ others, written => by
    simp only [List.forall_mem_append, List.forall_mem_cons] at written
    exact ⟨first.writable written.1, others.writable written.2.2⟩

/-- Blocks that derive from the tokens of a text can be written. -/
lemma DerivesBlock.writable {w : List Token} {b : Block} : DerivesBlock w b →
    (∀ t ∈ w, t.IsWritten) → b.Meets .writable
  | .braces _ statements _, written => by
    simp only [List.forall_mem_append, List.forall_mem_cons] at written
    exact ⟨trivial, statements.writable written.2.1⟩

/-- Statements that derive from the tokens of a text can be written. -/
lemma DerivesStatement.writable {w : List Token} {s : Stmt} : DerivesStatement w s →
    (∀ t ∈ w, t.IsWritten) → s.Meets .writable
  | .letStmt _ name _ value, written => by
    simp only [List.forall_mem_cons] at written
    exact ⟨written.2.1.identifier name, value.writable written.2.2.2⟩
  | .returnStmt _ value, written => value.writable (List.forall_mem_cons.1 written).2
  | .exprStmt value, written => value.writable (e := _) written

/-- Rows of statements that derive from the tokens of a text can be written. -/
lemma DerivesStatements.writable {w : List Token} {ss : List Stmt} : DerivesStatements w ss →
    (∀ t ∈ w, t.IsWritten) → Stmt.AllMeet .writable ss
  | .none, _ => trivial
  | .ended first _ others, written => by
    simp only [List.forall_mem_append, List.forall_mem_cons] at written
    exact ⟨meets_endedBy (first.writable written.1), others.writable written.2.2⟩
  | .bare first _ others, written => by
    simp only [List.forall_mem_append] at written
    exact ⟨first.writable written.1, others.writable written.2⟩

end

end Grammar

namespace Reading

variable {source : String} {p : Program}

/-- Reading a source is reading its tokens, with each diagnostic located in the source. -/
lemma ofSource_eq (source : String) :
    ofSource source = ⟨(ofTokens (Token.ofSource source)).program,
      (ofTokens (Token.ofSource source)).diagnostics.map (·.locate source)⟩ := rfl

/-- The tokens of a source are read as their segments. -/
lemma ofTokens_ofSource (source : String) : ofTokens (Token.ofSource source) =
    ofSegments (segments (.eof source.length) (Cursor.ofSource source).tokens) := by
  have noEof : ∀ t ∈ (Cursor.ofSource source).tokens, t.kind ≠ .eof := fun t mem =>
    (Cursor.isWritten_of_mem_tokens mem).noEof
  simp only [ofTokens, Token.ofSource,
    Token.untilEof_append noEof (rfl : (Token.eof source.length).kind = .eof)]

/-- A source is read as what its tokens derive. -/
lemma ofSource_of_derives {ss : List Stmt}
    (h : DerivesStatements (Cursor.ofSource source).tokens ss) : ofSource source = ⟨⟨ss⟩, []⟩ := by
  rw [ofSource_eq, ofTokens_ofSource, segments_of_derives h, ofSegments_ok]
  rfl

/-- What is read from a source without a diagnostic derives from its tokens. -/
lemma derives_of_ofSource (accepted : ofSource source = ⟨p, []⟩) :
    DerivesStatements (Cursor.ofSource source).tokens p.statements := by
  obtain ⟨ss, derives⟩ : ∃ ss, DerivesStatements (Cursor.ofSource source).tokens ss := by
    rw [ofSource_eq, ofTokens_ofSource] at accepted
    exact derives_of_segments (List.map_eq_nil_iff.1 (congrArg diagnostics accepted))
  have same := (ofSource_of_derives derives).symm.trans accepted
  cases same
  exact derives

/-- What is read from a source without a diagnostic can be written. -/
lemma writable_of_ofSource (accepted : ofSource source = ⟨p, []⟩) : p.Meets .writable :=
  ⟨trivial, (derives_of_ofSource accepted).writable fun _ => Cursor.isWritten_of_mem_tokens⟩

/-- The text of a program reads without a diagnostic, and as is known. -/
lemma ofSource_render (h : p.Meets .writable) :
    ∃ q, ofSource p.render = ⟨q, []⟩ ∧ q.shape = p.reread := by
  have tokens : (Cursor.ofSource p.render).tokens.map Token.shape = p.tokens := p.scan_render h
  obtain ⟨ss, derives, same⟩ := (p.derives_tokens h).placed tokens
  exact ⟨⟨ss⟩, ofSource_of_derives derives, congrArg Program.mk same⟩

/-- What is read from a source without a diagnostic can be written back: its text reads without a
diagnostic too, and as the same program, up to spans, exactly if nowhere in it an expression
statement stands directly before one whose text begins with a parenthesis. -/
theorem rendering_reads_iff (accepted : ofSource source = ⟨p, []⟩) :
    ∃ q, ofSource p.render = ⟨q, []⟩ ∧ (q.shape = p.shape ↔ p.Meets .separated) ∧
      (p.Meets .separated → q.render = p.render) := by
  have writable := writable_of_ofSource accepted
  obtain ⟨q, read, same⟩ := ofSource_render writable
  refine ⟨q, read, ?_, fun separated => ?_⟩
  · rw [same]
    exact Program.reread_eq_shape_iff writable
  · refine Program.render_eq_of_shape_eq ?_
    rw [same]
    exact (Program.reread_eq_shape_iff writable).2 separated

/-- The program `let a = 5` and `a`, as it is read without semicolons. -/
def binding : Program :=
  ⟨[.letStmt ⟨"a", ⟨4, 5⟩⟩ (.literal (.integer 5) ⟨8, 9⟩) ⟨0, 9⟩,
    .exprStmt (.identifier ⟨"a", ⟨10, 11⟩⟩) ⟨10, 11⟩]⟩

/-- The text `let a = 5 a` derives from the grammar without a semicolon. -/
lemma ofSource_binding : ofSource "let a = 5 a" = ⟨binding, []⟩ := by
  have tokens : (Cursor.ofSource "let a = 5 a").tokens =
      [⟨.letWord, "let", ⟨0, 3⟩⟩, ⟨.identifier, "a", ⟨4, 5⟩⟩, ⟨.assign, "=", ⟨6, 7⟩⟩,
        ⟨.int, "5", ⟨8, 9⟩⟩, ⟨.identifier, "a", ⟨10, 11⟩⟩] := by
    decide +kernel
  have five : Derives .call [⟨.int, "5", ⟨8, 9⟩⟩] (.literal (.integer 5) ⟨8, 9⟩) :=
    .integer rfl (by decide)
  have name : Derives .call [⟨.identifier, "a", ⟨10, 11⟩⟩] (.identifier ⟨"a", ⟨10, 11⟩⟩) :=
    .identifier rfl
  refine ofSource_of_derives ?_
  rw [tokens]
  exact .bare (.letStmt rfl rfl rfl (five.loosen (by decide))) (next_cons.2 (by decide))
    (.bare (.exprStmt (name.loosen (by decide))) next_nil .none)

/-- A binding and a name are written on two lines, which read as the same. -/
theorem rendering_reads_binding :
    ofSource "let a = 5 a" = ⟨binding, []⟩ ∧
      ∃ q, ofSource binding.render = ⟨q, []⟩ ∧ q.shape = binding.shape := by
  obtain ⟨q, read, same, _⟩ := rendering_reads_iff ofSource_binding
  have separated : binding.Meets .separated := by
    refine ⟨.cons_cons ?_ (.singleton _), ⟨trivial, trivial⟩, trivial, trivial⟩
    simp [Stmt.RunsInto, Stmt.isExpr]
  exact ⟨ofSource_binding, q, read, same.2 separated⟩

/-- The program `a` and `1 + 2`, as it is read with a semicolon between them. -/
def nameThenSum : Program :=
  ⟨[.exprStmt (.identifier ⟨"a", ⟨0, 1⟩⟩) ⟨0, 2⟩,
    .exprStmt (.binary .add (.literal (.integer 1) ⟨3, 4⟩) (.literal (.integer 2) ⟨7, 8⟩) ⟨3, 8⟩)
      ⟨3, 8⟩]⟩

/-- The text `a; 1 + 2` derives from the grammar as the name and the sum. -/
lemma ofSource_nameThenSum : ofSource "a; 1 + 2" = ⟨nameThenSum, []⟩ := by
  have tokens : (Cursor.ofSource "a; 1 + 2").tokens =
      [⟨.identifier, "a", ⟨0, 1⟩⟩, ⟨.semicolon, ";", ⟨1, 2⟩⟩, ⟨.int, "1", ⟨3, 4⟩⟩,
        ⟨.plus, "+", ⟨5, 6⟩⟩, ⟨.int, "2", ⟨7, 8⟩⟩] := by
    decide +kernel
  have name : Derives .call [⟨.identifier, "a", ⟨0, 1⟩⟩] (.identifier ⟨"a", ⟨0, 1⟩⟩) :=
    .identifier rfl
  have one : Derives .call [⟨.int, "1", ⟨3, 4⟩⟩] (.literal (.integer 1) ⟨3, 4⟩) :=
    .integer rfl (by decide)
  have two : Derives .call [⟨.int, "2", ⟨7, 8⟩⟩] (.literal (.integer 2) ⟨7, 8⟩) :=
    .integer rfl (by decide)
  have sum := @Derives.binary .add ⟨.plus, "+", ⟨5, 6⟩⟩ _ _ _ _ (one.loosen (by decide)) rfl
    (two.loosen (by decide))
  refine ofSource_of_derives ?_
  rw [tokens]
  exact .ended (.exprStmt (name.loosen (by decide))) rfl
    (.bare (.exprStmt (sum.loosen (by decide))) next_nil .none)

/-- Not every program is read back from its text: without the semicolon the sum behind the name
becomes an argument of it. -/
theorem not_rendering_reads_nameThenSum :
    ofSource "a; 1 + 2" = ⟨nameThenSum, []⟩ ∧
      (ofSource nameThenSum.render).program.shape ≠ nameThenSum.shape := by
  obtain ⟨q, read, reread⟩ := ofSource_render (writable_of_ofSource ofSource_nameThenSum)
  refine ⟨ofSource_nameThenSum, fun same => ?_⟩
  have one : nameThenSum.reread.statements.length = 1 := rfl
  rw [read, reread] at same
  rw [same] at one
  cases one

end Reading

/-- A program whose names are names, whose constants can be written and whose statements do not run
into each other is what its text reads as, up to spans. -/
theorem Program.reads_rendering {p : Program} (writable : p.Meets .writable)
    (separated : p.Meets .separated) :
    (Reading.ofSource p.render).diagnostics = [] ∧
      (Reading.ofSource p.render).program.shape = p.shape := by
  obtain ⟨q, read, same⟩ := Reading.ofSource_render writable
  rw [read]
  exact ⟨rfl, same.trans ((Program.reread_eq_shape_iff writable).2 separated)⟩

/-- A tree that was never read: `fn(x) { -x }(7)`, which needs no parentheses around the function,
and `(!a)(1, "b")` behind a statement with a semicolon. -/
def Program.unread : Program :=
  let name (x : String) : Identifier := ⟨x, .nowhere⟩
  let number (n : Int64) : Expr := .literal (.integer n) .nowhere
  let negation : Expr := .unary .negate (.identifier (name "x")) .nowhere
  let function : Expr :=
    .function [name "x"] ⟨[.exprStmt negation .nowhere], .nowhere⟩ .nowhere
  let operation : Expr := .unary .not (.identifier (name "a")) .nowhere
  let text : Expr := .literal (.string "b") .nowhere
  ⟨[.letStmt (name "f") (.call function [number 7] .nowhere) .nowhere,
    .exprStmt (.call operation [number 1, text] .nowhere) .nowhere]⟩

/-- The program `unread` was never read from a text, and is written and read all the same. -/
theorem Program.reads_rendering_unread :
    unread.Meets .writable ∧ unread.Meets .separated ∧
      (Reading.ofSource unread.render).program.shape = unread.shape := by
  have a : IsName "a" := isName_of_all (by decide) (by decide) (by decide) rfl
  have f : IsName "f" := isName_of_all (by decide) (by decide) (by decide) rfl
  have x : IsName "x" := isName_of_all (by decide) (by decide) (by decide) rfl
  have writable : unread.Meets .writable := by
    simp [unread, Meets, Stmt.AllMeet, Stmt.Meets, Expr.Meets, Expr.AllMeet, Block.Meets,
      Demand.writable, Literal.IsWritable, a, f, x]
  have separated : unread.Meets .separated := by
    simp [unread, Meets, Stmt.AllMeet, Stmt.Meets, Expr.Meets, Expr.AllMeet, Block.Meets,
      Demand.separated, Stmt.RunsInto, Stmt.isExpr]
  exact ⟨writable, separated, (reads_rendering writable separated).2⟩

end Monkey
