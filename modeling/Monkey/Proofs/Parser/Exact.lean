import Monkey.Proofs.Parser.Soundness
import Monkey.Proofs.Parser.Completeness

/-!
# Reading is deriving

The reader of expressions takes exactly what the stratified grammar derives, with the tree that it
derives, and stops where nothing continues the expression. Main statement: `expression_iff`.
-/

namespace Monkey.Parser

open Grammar

/-- An expression is read from the front of a list, and these tokens are left, exactly if the tokens
in front of them derive the expression, and the next one is neither an infix operator nor an opening
parenthesis, nor an `else` behind the consequence of a conditional that has no alternative. -/
theorem expression_iff (ts rest : List Token) (e : Expr) :
    (∃ shorter, expression .lowest ts = .ok ⟨e, rest, shorter⟩) ↔
      ∃ w, ts = w ++ rest ∧ Derives .lowest w e ∧ Next Apart rest ∧
        (ClosesConsequence w e → Next (· ≠ .elseWord) rest) := by
  rw [← reads_iff]
  constructor
  · intro read
    obtain ⟨w, rfl, stands⟩ := (sound ts).expression read
    refine ⟨w, rfl, stands.derives, ?_, stands.complete⟩
    exact stands.apart.mono fun _ => not_lowest_lt_iff.1
  · rintro ⟨w, rfl, derives, apart, complete⟩
    exact derives.readable.whole apart complete

/-- The operators of `a - b - c` lean to the left. -/
example : (expression .lowest
    [⟨.identifier, "a", .nowhere⟩, ⟨.minus, "-", .nowhere⟩, ⟨.identifier, "b", .nowhere⟩,
      ⟨.minus, "-", .nowhere⟩, ⟨.identifier, "c", .nowhere⟩]).toOption.map (fun p => p.value) =
    some (.binary .sub (.binary .sub (.identifier ⟨"a", .nowhere⟩) (.identifier ⟨"b", .nowhere⟩)
      .nowhere) (.identifier ⟨"c", .nowhere⟩) .nowhere) := by
  cbv

end Monkey.Parser
