import Monkey.Proofs.Json.Schema
import Monkey.Proofs.Standard.Json
import Monkey.Proofs.Syntax.Documents

/-!
# Documents however they are presented

Reading a document does not depend on how its text presents it: the white space, the order of the
members of an object, members of other names, a node as an array of its parts, an alternative that
is null left out. It fails where a text has a defect, or goes on behind the value. Only the limit of
the library on nesting gets in between, and there is a document beyond each limit. Main statements:
`ofText?_presented` and `not_ofText?_limited`.
-/

namespace Monkey.Document

open Json

variable {lib : JsonLibrary} {d : Document} {j : Json} {s : Span} {t extra : String}

/-- The document is read from each text of each value that presents it, unless the value is nested
too deep. -/
lemma ofText?_of_presents (h : lib.Lawful) (presents : Kind.document.Presents lib.isNoContent d j)
    (text : IsText lib.takes j t) : ofText? lib t = if lib.admits j then some d else none := by
  rw [ofText?, h.read?_of_isText text]
  split
  · exact h.decode?_of_presents presents
  · rfl

/-- What is read as a document is a text of a value that presents it. -/
lemma exists_presents_of_ofText? (h : lib.Lawful) (read : ofText? lib t = some d) :
    ∃ j, IsText lib.takes j t ∧ Kind.document.Presents lib.isNoContent d j := by
  obtain ⟨j, found, decoded⟩ := Option.bind_eq_some_iff.1 read
  exact ⟨j, h.sound found, h.decode?_iff.1 decoded⟩

/-- No document is read where each value that the text may have is defective. -/
lemma ofText?_of_defective (h : lib.Lawful) (defective : ∀ j, IsText lib.takes j t → Defective j) :
    ofText? lib t = none := by
  refine Option.eq_none_iff_forall_ne_some.2 fun d read => ?_
  obtain ⟨j, text, presents⟩ := exists_presents_of_ofText? h read
  exact not_defective presents (defective j text)

/-- No document is read from a text that goes on behind the text of a value. -/
lemma ofText?_append (h : lib.Lawful) (text : IsText lib.takes j t)
    (visible : ∃ c ∈ extra.toList, isSpace c = false) : ofText? lib (t ++ extra) = none := by
  refine Option.eq_none_iff_forall_ne_some.2 fun d read => ?_
  obtain ⟨j', text', presents⟩ := exists_presents_of_ofText? h read
  obtain ⟨ms, rfl⟩ : ∃ ms, j' = .object ms := presents.eq_object rfl
  exact text.not_append visible text'

/-- Whatever the library, as long as it is lawful: what is written for a document whose spans are
made of words presents it. Each text of a value that presents a document, with any white space
between the tokens, is read as the document, unless arrays and objects are nested deeper than the
library reads. A text that has a defect at some place, if it is JSON at all, is not read as any
document, and neither is a text with something behind the value. -/
theorem ofText?_presented (h : lib.Lawful) :
    (∀ d : Document, d.IsAddressable →
      Kind.document.Presents lib.isNoContent d (lib.encode .document d)) ∧
      (∀ (d : Document) j t, Kind.document.Presents lib.isNoContent d j → IsText lib.takes j t →
        ofText? lib t = if lib.admits j then some d else none) ∧
      (∀ t, (∀ j, IsText lib.takes j t → Defective j) → ofText? lib t = none) ∧
      ∀ j t extra, IsText lib.takes j t → (∃ c ∈ extra.toList, isSpace c = false) →
        ofText? lib (t ++ extra) = none :=
  ⟨fun _ words => h.presents_encode (inRange words), fun _ _ _ => ofText?_of_presents h,
    fun _ => ofText?_of_defective h, fun _ _ _ => ofText?_append h⟩

/-- The document for `if (a) {}`. -/
def bareIf : Document :=
  let name := ⟨"a", ⟨4, 5⟩⟩
  .ofProgram ⟨[.exprStmt (.conditional (.identifier name) ⟨[], ⟨7, 9⟩⟩ none ⟨0, 9⟩) ⟨0, 9⟩]⟩

/-- A span as the array of its ends. -/
def shortSpan (start stop : Nat) : Json := .array [.ofNat start, .ofNat stop]

/-- A value that presents the document: the members of objects in reverse order, one of them
unknown, other nodes as arrays, and no alternative. -/
def bareIfReversed : Json :=
  .object [("note", .null),
    ("statements", .array [.tagged "Expr" (.array [.tagged "If" (.object
      [("span", shortSpan 0 9),
        ("consequence", .array [.array [], .object [("end", .ofNat 9), ("start", .ofNat 7)]]),
        ("condition", .tagged "Identifier" (.array [.string "a", shortSpan 4 5]))]),
      shortSpan 0 9])]),
    ("ast_version", .ofNat 1)]

/-- A value with a negative bound in the span of the constant that is its only statement. -/
def negativeBound : Json :=
  .object [("ast_version", .ofNat 1),
    ("statements", .array [.tagged "Expr" (.array [.tagged "Literal" (.array
      [.tagged "Bool" (.bool true), .array [.integer (-1), .ofNat 4]]), shortSpan 0 4])])]

section Presented

variable {noContent : Json → Bool}

/-- A number of 64 bits is presented by itself. -/
lemma word_presented {n : Nat} (small : n < Numeral.words 64) :
    Kind.word64.Presents noContent n (.ofNat n) :=
  .leaf (k := .word64) rfl small

/-- A span is presented by its bounds in an array. -/
lemma shortSpan_presented (h : s.IsAddressable) :
    Kind.span.Presents noContent s (shortSpan s.start s.stop) :=
  Kind.presents_items rfl (.cons (word_presented h.1) (.cons (word_presented h.2) .nil))

/-- The name `a` is presented by an array. -/
lemma name_presented :
    Kind.identifier.Presents noContent ⟨"a", ⟨4, 5⟩⟩ (.array [.string "a", shortSpan 4 5]) :=
  Kind.presents_items rfl (.cons (.leaf (k := .text) rfl trivial)
    (.cons (shortSpan_presented (s := ⟨4, 5⟩) ⟨by decide, by decide⟩) .nil))

/-- The empty block is presented by an array, with the ends of its span the wrong way round. -/
lemma consequence_presented : Kind.block.Presents noContent ⟨[], ⟨7, 9⟩⟩
    (.array [.array [], .object [("end", .ofNat 9), ("start", .ofNat 7)]]) := by
  have ends : Kind.span.Presents noContent ⟨7, 9⟩
      (.object [("end", .ofNat 9), ("start", .ofNat 7)]) := by
    refine Kind.presents_object rfl (by decide) ?_
    simp only [List.forall_mem_cons, List.not_mem_nil, false_implies, implies_true, and_true]
    exact ⟨word_presented (n := 7) (by decide), word_presented (n := 9) (by decide)⟩
  exact Kind.presents_items rfl
    (.cons (.row (k := .statements) rfl rfl fun _ _ mem => absurd mem List.not_mem_nil)
      (.cons ends .nil))

/-- The short and reversed JSON presents the conditional. -/
lemma bareIf_presented : Kind.document.Presents noContent bareIf bareIfReversed := by
  have whole : Kind.span.Presents noContent ⟨0, 9⟩ (shortSpan 0 9) :=
    shortSpan_presented (s := ⟨0, 9⟩) ⟨by decide, by decide⟩
  have name : Kind.identifier.Presents noContent ⟨"a", ⟨4, 5⟩⟩ _ := name_presented
  have condition := Kind.Presents.choice (k := .expression) (v := .identifier ⟨"a", ⟨4, 5⟩⟩) rfl
    (.tail _ (.head _)) rfl name
  have node : Kind.ifNode.Presents noContent
      (.identifier ⟨"a", ⟨4, 5⟩⟩, ⟨[], ⟨7, 9⟩⟩, none, ⟨0, 9⟩) (.object
        [("span", shortSpan 0 9),
          ("consequence", .array [.array [], .object [("end", .ofNat 9), ("start", .ofNat 7)]]),
          ("condition", .tagged "Identifier" (.array [.string "a", shortSpan 4 5]))]) := by
    refine Kind.presents_object rfl (by decide) ?_
    simp only [List.forall_mem_cons, List.not_mem_nil, false_implies, implies_true, and_true]
    exact ⟨condition, consequence_presented, rfl, whole⟩
  have expression := Kind.Presents.choice (k := .expression) (v := .conditional
    (.identifier ⟨"a", ⟨4, 5⟩⟩) ⟨[], ⟨7, 9⟩⟩ none ⟨0, 9⟩) rfl
    (.tail _ (.tail _ (.tail _ (.tail _ (.head _))))) rfl node
  have pair : Kind.exprNode.Presents noContent (_, ⟨0, 9⟩) (.array [_, shortSpan 0 9]) :=
    Kind.presents_items rfl (.cons expression (.cons whole .nil))
  have statement := Kind.Presents.choice (k := .statement) (v := .exprStmt _ ⟨0, 9⟩) rfl
    (.tail _ (.tail _ (.head _))) rfl pair
  have statements : Kind.statements.Presents noContent [_] (.array [_]) :=
    .row (k := .statements) rfl rfl fun w j mem => by
      obtain ⟨rfl, rfl⟩ := Prod.mk.inj (List.mem_singleton.1 mem)
      exact statement
  have version : Kind.word32.Presents noContent 1 (.ofNat 1) := .leaf (k := .word32) rfl trivial
  refine Kind.presents_object rfl (by decide) ?_
  simp only [List.forall_mem_cons, List.not_mem_nil, false_implies, implies_true, and_true]
  exact ⟨version, statements⟩

end Presented

/-- The short and reversed JSON has small numbers only. -/
lemma bareIfReversed_plain : bareIfReversed.IsPlain := by
  simp [bareIfReversed, shortSpan, tagged, ofNat, IsPlain, ArePlain, MembersArePlain,
    Numeral.words]

/-- The JSON with a negative bound has small numbers only. -/
lemma negativeBound_plain : negativeBound.IsPlain := by
  simp [negativeBound, shortSpan, tagged, ofNat, IsPlain, ArePlain, MembersArePlain,
    Numeral.words]

/-- A negative bound is no word. -/
lemma negativeBound_defective : Defective negativeBound := by
  have document : Expected negativeBound .document negativeBound := .root
  have statements := document.inside (.member rfl (.tail _ (.head _)) (.tail _ (.head _)))
  have statement := statements.inside (.item rfl (.head _))
  have node := statement.content rfl (.tail _ (.tail _ (.head _))) rfl
  have constant := node.inside (.position (i := 0) rfl rfl rfl)
  have pair := constant.content rfl (.head _) rfl
  have span := pair.inside (.component (i := 1) rfl rfl rfl)
  have bound := span.inside (.position (i := 0) rfl rfl rfl)
  refine ⟨_, _, bound, .leaf rfl fun n _ same => ?_⟩
  have same := Json.integer.inj same
  omega

/-- With the standard library the reversed members are read, the negative bound is not, and neither
is a text that is closed once more. -/
theorem ofText?_presented_reversed :
    ofText? .standard bareIfReversed.pretty = some bareIf ∧
      ofText? .standard negativeBound.pretty = none ∧
      ofText? .standard (bareIfReversed.pretty ++ "\x7d") = none := by
  obtain ⟨-, presented, defects, behind⟩ := ofText?_presented JsonLibrary.standard_lawful
  have text := isText_pretty bareIfReversed_plain
  refine ⟨?_, ?_, ?_⟩
  · have shallow : JsonLibrary.standard.admits bareIfReversed := by decide
    rw [presented _ _ _ bareIf_presented text, if_pos shallow]
  · refine defects _ fun j found => ?_
    rw [found.unique (isText_pretty negativeBound_plain)]
    exact negativeBound_defective
  · exact behind _ _ _ text ⟨'\x7d', by decide⟩

/-! ## Beyond the limit -/

/-- The constant `true` behind so many operators that negate it. -/
def negated : Nat → Expr
  | 0 => .literal (.boolean true) ⟨0, 0⟩
  | n + 1 => .unary .not (negated n) ⟨0, 0⟩

/-- The document for the constant `true` behind so many operators. -/
def negations (n : Nat) : Document := .ofProgram ⟨[.exprStmt (negated n) ⟨0, 0⟩]⟩

/-- Negations are addressable. -/
lemma negated_isAddressable (n : Nat) : (negated n).IsAddressable := by
  induction n with
  | zero => exact ⟨by decide, by decide⟩
  | succ n ih => exact ⟨ih, by decide, by decide⟩

/-- A document of negations is addressable. -/
lemma negations_isAddressable (n : Nat) : (negations n).IsAddressable :=
  ⟨⟨negated_isAddressable n, by decide, by decide⟩, trivial⟩

/-- What is written for an expression is nested deeper with each operator. -/
lemma le_depth_negated (h : lib.Lawful) (n : Nat) :
    n ≤ (lib.encode .expression (negated n)).depth := by
  induction n with
  | zero => exact Nat.zero_le _
  | succ n ih =>
    have node := h.depth_encode_lt (k := .prefixNode) (v := (.not, negated n, ⟨0, 0⟩)) rfl
      (.tail _ (.head _)) rfl
    have choice := h.encode_choice (k := .expression) (v := negated (n + 1)) rfl
      (.tail _ (.tail _ (.head _))) rfl
    rw [choice, depth_tagged]
    exact Nat.le_succ_of_le (Nat.lt_of_le_of_lt ih node)

/-- What is written for the document is nested deeper than its expression. -/
lemma lt_depth_negations (h : lib.Lawful) (n : Nat) :
    n < (lib.encode .document (negations n)).depth := by
  have document := h.depth_encode_lt (k := .document) (v := negations n) rfl
    (.tail _ (.head _)) rfl
  have statements : (lib.encode .statement (.exprStmt (negated n) ⟨0, 0⟩)).depth <
      (lib.encode .statements (negations n).program.statements).depth := by
    rw [h.encode_row (k := .statements) rfl]
    exact depth_lt_of_mem_items (.head _)
  have statement := h.encode_choice (k := .statement) (v := .exprStmt (negated n) ⟨0, 0⟩) rfl
    (.tail _ (.tail _ (.head _))) rfl
  rw [statement, depth_tagged] at statements
  have node := h.depth_encode_lt (k := .exprNode) (v := (negated n, ⟨0, 0⟩)) rfl (.head _) rfl
  exact calc
    n ≤ (lib.encode .expression (negated n)).depth := le_depth_negated h n
    _ ≤ (lib.encode .exprNode (negated n, ⟨0, 0⟩)).depth := Nat.le_of_lt node
    _ < (lib.encode .statements (negations n).program.statements).depth :=
      Nat.lt_of_succ_lt statements
    _ < (lib.encode .document (negations n)).depth := document

/-- Whatever the library, as long as it is lawful and has some limit on nesting: not every text of a
value that presents a document is read as the document. -/
theorem not_ofText?_limited : ¬ ∃ lib : JsonLibrary, lib.Lawful ∧ lib.limit.isSome ∧
    ∀ (d : Document) j t, Kind.document.Presents lib.isNoContent d j → IsText lib.takes j t →
      ofText? lib t = some d := by
  rintro ⟨lib, h, limited, all⟩
  obtain ⟨limit, found⟩ := Option.isSome_iff_exists.1 limited
  have inRange := inRange (negations_isAddressable limit)
  obtain ⟨t, -, text, read⟩ := exists_text h inRange
  have deep : lib.admits (lib.encode .document (negations limit)) = false := by
    simpa [JsonLibrary.admits, found] using lt_depth_negations h limit
  rw [all _ _ t (h.presents_encode inRange) text, deep] at read
  cases read

end Monkey.Document
