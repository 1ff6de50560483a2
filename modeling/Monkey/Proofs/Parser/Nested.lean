import Monkey.Proofs.Grammar.Spans
import Monkey.Proofs.Parser.Pieces

/-!
# Nested trees

The statements of a source stand on different pieces of it, and each derives from its piece; so the
nodes that are read are nested, whatever is dropped between them. Main statement:
`Reading.ofSource_nested`.
-/

open Monkey.Parser Monkey.Grammar

namespace Monkey

/-- The statements that pieces are read as are nested and stand one behind the other. -/
lemma Piece.Placed.row {text : List Token} {start : Nat} {pieces : List Piece}
    (placed : Placed (fun start piece => piece.IsAt text start) start pieces)
    (orderly : Orderly (pieces.flatMap tokens)) :
    Row (pieces.flatMap tokens) ((pieces.filterMap stmt?).map .statement) := by
  induction pieces generalizing start with
  | nil => exact .nil
  | cons piece pieces ih =>
    obtain ⟨first, others⟩ := placed
    rw [List.flatMap_cons] at orderly ⊢
    have behind := ih others orderly.right
    cases first with
    | read _ _ derives => exact .append orderly (derives.row orderly.left) behind
    | dropped => exact behind.mono (List.subset_append_right _ _)

/-- The tokens of a source before the marker at its end are orderly. -/
lemma Token.ofSource_orderly (source : String) :
    Orderly (untilEof (ofSource source)).1 ∧
      ∀ t ∈ (untilEof (ofSource source)).1, t.span.stop ≤ source.length := by
  obtain ⟨ts, whole, inside, ordered⟩ := ofSource_within source
  have before : untilEof (ofSource source) = (ts, .eof source.length) := by
    rw [whole]
    exact untilEof_append (fun t mem => (inside t mem).1) rfl
  rw [before]
  exact ⟨⟨fun t mem => (inside t mem).2.1, ordered⟩, fun t mem => (inside t mem).2.2⟩

/-- Whatever source is read, every node of the program stands on tokens of the source and holds its
children one behind the other, and the statements stand one behind the other. -/
theorem Reading.ofSource_nested (source : String) :
    (∀ node, (ofSource source).program.HasNode node →
      node.WellPlaced (Token.untilEof (Token.ofSource source)).1 ∧
        node.span.stop ≤ source.length) ∧
      (ofSource source).program.statements.Pairwise fun s s' => s.span.stop ≤ s'.span.start := by
  obtain ⟨pieces, cut⟩ := exists_isCut (Token.ofSource source)
  obtain ⟨orderly, inside⟩ := Token.ofSource_orderly source
  have row := (cut.placed.mono fun _ _ => And.left).row (cut.tokens ▸ orderly)
  rw [cut.tokens, ← cut.statements] at row
  refine ⟨fun node has => ?_, ?_⟩
  · have nests : node.Nests _ :=
      .of_hasNode (fun s mem => row.nests _ (List.mem_map_of_mem mem)) has
    obtain ⟨t, mem, stop⟩ := nests.ofTokens.stop
    exact ⟨nests.wellPlaced, stop ▸ inside t mem⟩
  · exact List.pairwise_map.1 (List.pairwise_map.1 row.strip.ordered)

end Monkey
