import Monkey.Proofs.Syntax.Spelling
import Mathlib.Data.List.TakeWhile

/-!
# What scanned tokens are like

Tokens that come from a text have lexemes that fit their kinds: an identifier is a name, an integer
has digits only, a string has no quote inside; and none of them is an end marker. Main statement:
`Cursor.isWritten_of_mem_tokens`.
-/

namespace Monkey

open Cursor

/-- The lexeme is one that a text can give to a token of the kind. -/
structure Token.IsWritten (t : Token) : Prop where
  identifier : t.kind = .identifier → IsName t.lexeme
  int : t.kind = .int → ∀ c ∈ t.lexeme.toList, c.isDigit
  string : t.kind = .string → '"' ∉ t.lexeme.toList
  noEof : t.kind ≠ .eof

/-- Of the other kinds a token may have any lexeme. -/
lemma Token.IsWritten.of_kind {kind : TokenKind} {text : String} {span : Span}
    (h : kind ∉ [.identifier, .int, .string, .eof]) : IsWritten ⟨kind, text, span⟩ := by
  simp only [List.mem_cons, List.not_mem_nil, or_false, not_or] at h
  obtain ⟨noName, noInt, noString, noEof⟩ := h
  exact ⟨fun kind => absurd kind noName, fun kind => absurd kind noInt,
    fun kind => absurd kind noString, noEof⟩

namespace Cursor

variable {c : Char} {cs : List Char} {span : Span}

/-- A text in quotation marks is written in a text. -/
lemma isWritten_string : Token.IsWritten ⟨(string cs).kind, (string cs).text, span⟩ := by
  unfold string
  split
  · exact .of_kind (by simp)
  · refine ⟨nofun, nofun, fun _ quote => ?_, nofun⟩
    rw [String.toList_ofList] at quote
    simpa using List.mem_takeWhile_imp quote

/-- A word is written in a text. -/
lemma isWritten_word (start : startsWord c) (more : ∀ c ∈ cs, continuesWord c) :
    Token.IsWritten ⟨.ofWord (String.ofList (c :: cs)), String.ofList (c :: cs), span⟩ := by
  cases keyword : TokenKind.ofKeyword? (String.ofList (c :: cs)) with
  | some kind =>
    refine .of_kind ?_
    simp only [TokenKind.ofWord, keyword, Option.getD_some]
    revert keyword
    unfold TokenKind.ofKeyword?
    split <;> rintro ⟨⟩ <;> decide
  | none =>
    simp only [TokenKind.ofWord, keyword, Option.getD_none]
    refine ⟨fun _ => ⟨?_, ?_, ?_, keyword⟩, nofun, nofun, nofun⟩
    · simp
    · rw [String.toList_ofList]
      intro c' mem
      have word : continuesWord c' := by
        rcases List.mem_cons.1 mem with rfl | mem
        · exact continuesWord_of_startsWord start
        · exact more c' mem
      simpa [continuesWord] using word
    · simp [not_isDigit_of_startsWord start]

/-- A lexeme is written in a text. -/
lemma isWritten_lexeme : Token.IsWritten ⟨(lexeme c cs).kind, (lexeme c cs).text, span⟩ := by
  unfold lexeme
  split
  · exact isWritten_string
  · split
    · rename_i digit
      refine ⟨nofun, fun _ => ?_, nofun, nofun⟩
      rw [String.toList_ofList]
      exact List.forall_mem_cons.2 ⟨digit, fun c mem => List.mem_takeWhile_imp mem⟩
    · split
      · rename_i start
        exact isWritten_word start fun c mem => List.mem_takeWhile_imp mem
      · split
        · exact .of_kind (by simp)
        · exact .of_kind (by simp)
        · refine .of_kind ?_
          unfold punctuation?
          split <;> simp

/-- The tokens of a text are written in it. -/
lemma isWritten_of_mem_tokens {n : Nat} {t : Token} (mem : t ∈ tokens ⟨n, cs⟩) : t.IsWritten := by
  induction len : cs.length using Nat.strongRecOn generalizing n cs with
  | ind len ih =>
    subst len
    cases first : next? ⟨n, cs⟩ with
    | none =>
      rw [tokens_of_none first] at mem
      cases mem
    | some r =>
      obtain ⟨t', n', rest⟩ := r
      rw [tokens_of_next? first] at mem
      rcases List.mem_cons.1 mem with rfl | mem
      · unfold next? at first
        split at first
        · cases first
        · cases first
          exact isWritten_lexeme
      · exact ih _ (next?_rest_lt first) mem rfl

end Cursor

end Monkey
