import Monkey.Proofs.Parser.Soundness
import Monkey.Proofs.Parser.Completeness
import Monkey.Proofs.Grammar.Reshaping

/-!
# Acceptance

A text reads without a diagnostic exactly if its tokens form a program in the ambiguous grammar. So
although the reader goes on with an expression wherever it can, it does not thereby miss a division
into statements that would have done. Main statement: `Reading.diagnostics_eq_nil_iff`.
-/

namespace Monkey

open Monkey.Parser Monkey.Grammar

namespace Parser

variable {ts rest : List Token} {stop : Token}

/-- A statement that is read is a segment, in front of those behind it. -/
lemma segments_of_reads {s : Stmt} (read : Reads (statement ts) s rest) :
    segments stop ts = .ok s :: segments stop rest := by
  have lt := read.shorter
  obtain ⟨⟨value, rest, shorter⟩, eq, rfl, rfl⟩ := read
  cases ts with
  | nil => exact absurd lt (Nat.not_lt_zero _)
  | cons t ts =>
    rw [segments, eq]
    rfl

/-- Statements are read one after another. -/
lemma segments_of_derives {w : List Token} {statements : List Stmt}
    (h : DerivesStatements w statements) : segments stop w = statements.map .ok := by
  induction statements generalizing w with
  | nil =>
    cases h
    rw [segments]
    rfl
  | cons _ _ ih =>
    cases h with
    | ended first kind others =>
      rw [segments_of_reads (first.readable.ended kind), ih others]
      rfl
    | bare first apart others =>
      rw [segments_of_reads (first.readable.bare (others.follows apart)), ih others]
      rfl

/-- A text that reads without a diagnostic derives statements. -/
lemma derives_of_segments (none : (Reading.ofSegments (segments stop ts)).diagnostics = []) :
    ∃ statements, DerivesStatements ts statements := by
  induction n : ts.length using Nat.strongRecOn generalizing ts with
  | ind n ih =>
    subst n
    cases ts with
    | nil => exact ⟨[], .none⟩
    | cons t ts =>
      cases run : statement (t :: ts) with
      | error failure =>
        rw [segments, run] at none
        cases none
      | ok r =>
        have read : Reads (statement (t :: ts)) r.value r.rest := ⟨r, run, rfl, rfl⟩
        rw [segments_of_reads read] at none
        obtain ⟨statements, others⟩ := ih _ r.shorter none rfl
        obtain ⟨v, s, r', eq, first, apart, ends⟩ :=
          statement_sound (fun us _ => sound us) read
        rw [eq]
        -- Whether or not a semicolon was there, the others were read from what it left.
        rcases ends with ⟨semicolon, rfl, kind, _⟩ | ⟨_, _, same⟩
        · exact ⟨_, .ended first kind others⟩
        · rw [same] at others
          exact ⟨_, .bare first apart others⟩

end Parser

/-- Segments that are all statements are read without a diagnostic. -/
lemma Reading.ofSegments_ok (statements : List Stmt) :
    ofSegments (statements.map .ok) = ⟨⟨statements⟩, []⟩ := by
  induction statements with
  | nil => rfl
  | cons s others ih =>
    have program : (ofSegments (others.map .ok)).program = ⟨others⟩ := congrArg program ih
    have diagnostics : (ofSegments (others.map .ok)).diagnostics = [] := congrArg diagnostics ih
    show (⟨⟨s :: (ofSegments (others.map .ok)).program.statements⟩,
      (ofSegments (others.map .ok)).diagnostics⟩ : Reading) = ⟨⟨s :: others⟩, []⟩
    rw [program, diagnostics]

/-- The tokens before the first end marker. -/
lemma Token.untilEof_append {w rest : List Token} {marker : Token}
    (noEof : ∀ t ∈ w, t.kind ≠ .eof) (isEof : marker.kind = .eof) :
    untilEof (w ++ marker :: rest) = (w, marker) := by
  have before : (w ++ marker :: rest).takeWhile (·.kind ≠ .eof) = w := by
    rw [List.takeWhile_append_of_pos (by simpa using noEof)]
    simp [isEof]
  simp only [untilEof, before, List.drop_left]

/-- Tokens read without a diagnostic exactly if they form a program, however it may be divided into
statements. The statements that are read then derive from all the tokens, and none of these is
illegal. -/
theorem Reading.diagnostics_eq_nil_iff {w : List Token} {marker : Token}
    (noEof : ∀ t ∈ w, t.kind ≠ .eof) (isEof : marker.kind = .eof) :
    ((ofTokens (w ++ [marker])).diagnostics = [] ↔ IsProgram w) ∧
      ((ofTokens (w ++ [marker])).diagnostics = [] →
        DerivesStatements w (ofTokens (w ++ [marker])).program.statements ∧
          ∀ t ∈ w, t.kind ≠ .illegal) := by
  have reading : ofTokens (w ++ [marker]) = ofSegments (segments marker w) := by
    simp only [ofTokens, Token.untilEof_append noEof isEof]
  rw [reading]
  refine ⟨⟨fun none => ?_, fun program => ?_⟩, fun none => ?_⟩
  · obtain ⟨statements, derives⟩ := derives_of_segments none
    exact derives.isProgram
  · obtain ⟨statements, derives⟩ := program.derives
    rw [segments_of_derives derives, ofSegments_ok]
  · obtain ⟨statements, derives⟩ := derives_of_segments none
    rw [segments_of_derives derives, ofSegments_ok]
    exact ⟨derives, derives.isProgram.legal⟩

/-- The tokens of `let f = x (1)`. -/
def bindingThenGroup : List Token :=
  [⟨.letWord, "let", .nowhere⟩, ⟨.identifier, "f", .nowhere⟩, ⟨.assign, "=", .nowhere⟩,
    ⟨.identifier, "x", .nowhere⟩, ⟨.leftParen, "(", .nowhere⟩, ⟨.int, "1", .nowhere⟩,
    ⟨.rightParen, ")", .nowhere⟩]

/-- A binding and a group behind it, without a semicolon between them, read without a diagnostic,
although they are not read as two statements. -/
theorem Reading.diagnostics_bindingThenGroup :
    IsProgram bindingThenGroup ∧ (ofTokens (bindingThenGroup ++ [.eof 0])).diagnostics = [] := by
  have group : IsClause [⟨.leftParen, "(", .nowhere⟩, ⟨.int, "1", .nowhere⟩,
      ⟨.rightParen, ")", .nowhere⟩] :=
    .exprStmt (.group (w := [_]) rfl (.integer (n := 1) rfl (by decide)) rfl)
  have program : IsProgram bindingThenGroup :=
    .bare (v := [_, _, _, _]) (.letStmt rfl rfl rfl (.identifier rfl)) (.bare group .none)
  exact ⟨program, (diagnostics_eq_nil_iff (by decide) rfl).1.2 program⟩

end Monkey
