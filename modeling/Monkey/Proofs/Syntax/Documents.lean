import Monkey.Proofs.Json.Presentation
import Monkey.Proofs.Json.Trailing
import Monkey.Proofs.Standard.Json
import Mathlib.Data.Set.Function

/-!
# Documents as texts and back

A document whose spans are made of words of 64 bits has a text, in any layout of the library, and is
read back from it, unless it is nested too deep for the library. So no two of them have the same
text, and what has been read is read again from its own text. Main statement:
`Document.text_readable`.
-/

namespace Monkey

open Kind (InRange)

/-- Both ends of the span are words of 64 bits. -/
def Span.IsAddressable (s : Span) : Prop :=
  s.start < Numeral.words 64 ∧ s.stop < Numeral.words 64

/-- The span of the name is made of words. -/
def Identifier.IsAddressable (x : Identifier) : Prop := x.span.IsAddressable

mutual

/-- All spans in the expression are made of words. -/
def Expr.IsAddressable : Expr → Prop
  | .literal _ span => span.IsAddressable
  | .identifier x => x.IsAddressable
  | .unary _ operand span => operand.IsAddressable ∧ span.IsAddressable
  | .binary _ left right span => left.IsAddressable ∧ right.IsAddressable ∧ span.IsAddressable
  | .conditional condition consequence none span =>
    condition.IsAddressable ∧ consequence.IsAddressable ∧ span.IsAddressable
  | .conditional condition consequence (some alternative) span =>
    condition.IsAddressable ∧ consequence.IsAddressable ∧ alternative.IsAddressable ∧
      span.IsAddressable
  | .function params body span =>
    (∀ x ∈ params, x.IsAddressable) ∧ body.IsAddressable ∧ span.IsAddressable
  | .call callee args span =>
    callee.IsAddressable ∧ Expr.AreAddressable args ∧ span.IsAddressable

/-- All spans in the expressions are made of words. -/
def Expr.AreAddressable : List Expr → Prop
  | [] => True
  | e :: others => e.IsAddressable ∧ Expr.AreAddressable others

/-- All spans in the statement are made of words. -/
def Stmt.IsAddressable : Stmt → Prop
  | .letStmt x value span => x.IsAddressable ∧ value.IsAddressable ∧ span.IsAddressable
  | .returnStmt value span => value.IsAddressable ∧ span.IsAddressable
  | .exprStmt value span => value.IsAddressable ∧ span.IsAddressable

/-- All spans in the statements are made of words. -/
def Stmt.AreAddressable : List Stmt → Prop
  | [] => True
  | s :: others => s.IsAddressable ∧ Stmt.AreAddressable others

/-- All spans in the block are made of words. -/
def Block.IsAddressable : Block → Prop
  | ⟨statements, span⟩ => Stmt.AreAddressable statements ∧ span.IsAddressable

end

/-- All spans in the document are made of words. -/
def Document.IsAddressable (d : Document) : Prop := Stmt.AreAddressable d.program.statements

/-! ## Numbers in range -/

/-- An addressable span is in range. -/
lemma Span.inRange {s : Span} (h : s.IsAddressable) : Kind.span.InRange s :=
  .node rfl (List.forall_mem_cons.2 ⟨.leaf (k := .word64) rfl h.1,
    List.forall_mem_singleton.2 (.leaf (k := .word64) rfl h.2)⟩)

/-- An addressable name is in range. -/
lemma Identifier.inRange {x : Identifier} (h : x.IsAddressable) : Kind.identifier.InRange x :=
  .node rfl (List.forall_mem_cons.2 ⟨.leaf (k := .text) rfl trivial,
    List.forall_mem_singleton.2 (Span.inRange h)⟩)

/-- Every constant is in range. -/
lemma Literal.inRange (l : Literal) : Kind.literal.InRange l := by
  cases l with
  | integer value => exact .choice rfl (.head _) rfl (.leaf (k := .integer) rfl trivial)
  | boolean value => exact .choice rfl (.tail _ (.head _)) rfl (.leaf (k := .boolean) rfl trivial)
  | string value =>
    exact .choice rfl (.tail _ (.tail _ (.head _))) rfl (.leaf (k := .text) rfl trivial)

/-- An operator has no number. -/
lemma PrefixOp.inRange (op : PrefixOp) : Kind.prefixOp.InRange op := .unit rfl

/-- An operator has no number. -/
lemma InfixOp.inRange (op : InfixOp) : Kind.infixOp.InRange op := .unit rfl

mutual

/-- The numbers in an expression are in range if its spans are made of words. -/
theorem Expr.inRange : ∀ (e : Expr), e.IsAddressable → Kind.expression.InRange e
  | .literal value span, h => by
    refine .choice rfl (.head _) rfl (.tuple rfl ?_)
    simp only [List.forall_mem_cons, List.not_mem_nil, false_implies, implies_true, and_true]
    exact ⟨value.inRange, Span.inRange h⟩
  | .identifier x, h => .choice rfl (.tail _ (.head _)) rfl (Identifier.inRange h)
  | .unary op operand _, h => by
    refine .choice rfl (.tail _ (.tail _ (.head _))) rfl (.node rfl ?_)
    simp only [List.forall_mem_cons, List.not_mem_nil, false_implies, implies_true, and_true]
    exact ⟨op.inRange, operand.inRange h.1, Span.inRange h.2⟩
  | .binary op left right _, h => by
    refine .choice rfl (.tail _ (.tail _ (.tail _ (.head _)))) rfl (.node rfl ?_)
    simp only [List.forall_mem_cons, List.not_mem_nil, false_implies, implies_true, and_true]
    exact ⟨op.inRange, left.inRange h.1, right.inRange h.2.1, Span.inRange h.2.2⟩
  | .conditional condition consequence none span, h => by
    refine .choice rfl (.tail _ (.tail _ (.tail _ (.tail _ (.head _))))) rfl (.node rfl ?_)
    simp only [List.forall_mem_cons, List.not_mem_nil, false_implies, implies_true, and_true]
    exact ⟨condition.inRange h.1, consequence.inRange h.2.1,
      .nothing (k := .alternative) rfl rfl, Span.inRange h.2.2⟩
  | .conditional condition consequence (some alternative) span, h => by
    refine .choice rfl (.tail _ (.tail _ (.tail _ (.tail _ (.head _))))) rfl (.node rfl ?_)
    simp only [List.forall_mem_cons, List.not_mem_nil, false_implies, implies_true, and_true]
    exact ⟨condition.inRange h.1, consequence.inRange h.2.1,
      .something (k := .alternative) rfl rfl (alternative.inRange h.2.2.1), Span.inRange h.2.2.2⟩
  | .function params body span, h => by
    refine .choice rfl (.tail _ (.tail _ (.tail _ (.tail _ (.tail _ (.head _)))))) rfl
      (.node rfl ?_)
    simp only [List.forall_mem_cons, List.not_mem_nil, false_implies, implies_true, and_true]
    exact ⟨.row (k := .parameters) rfl fun x mem => Identifier.inRange (h.1 x mem),
      body.inRange h.2.1, Span.inRange h.2.2⟩
  | .call callee args span, h => by
    refine .choice rfl (.tail _ (.tail _ (.tail _ (.tail _ (.tail _ (.tail _ (.head _))))))) rfl
      (.node rfl ?_)
    simp only [List.forall_mem_cons, List.not_mem_nil, false_implies, implies_true, and_true]
    exact ⟨callee.inRange h.1, .row (k := .arguments) rfl (Expr.inRange_of_mem args h.2.1),
      Span.inRange h.2.2⟩

/-- Addressable expressions are in range one by one. -/
theorem Expr.inRange_of_mem : ∀ (es : List Expr), Expr.AreAddressable es →
    ∀ e ∈ es, Kind.expression.InRange e
  | [], _ => nofun
  | e :: others, h => List.forall_mem_cons.2 ⟨e.inRange h.1, Expr.inRange_of_mem others h.2⟩

/-- An addressable statement is in range. -/
theorem Stmt.inRange : ∀ (s : Stmt), s.IsAddressable → Kind.statement.InRange s
  | .letStmt x value span, h => by
    refine .choice rfl (.head _) rfl (.node rfl ?_)
    simp only [List.forall_mem_cons, List.not_mem_nil, false_implies, implies_true, and_true]
    exact ⟨Identifier.inRange h.1, value.inRange h.2.1, Span.inRange h.2.2⟩
  | .returnStmt value span, h => by
    refine .choice rfl (.tail _ (.head _)) rfl (.node rfl ?_)
    simp only [List.forall_mem_cons, List.not_mem_nil, false_implies, implies_true, and_true]
    exact ⟨value.inRange h.1, Span.inRange h.2⟩
  | .exprStmt value span, h => by
    refine .choice rfl (.tail _ (.tail _ (.head _))) rfl (.node rfl ?_)
    simp only [List.forall_mem_cons, List.not_mem_nil, false_implies, implies_true, and_true]
    exact ⟨value.inRange h.1, Span.inRange h.2⟩

/-- Addressable statements are in range one by one. -/
theorem Stmt.inRange_of_mem : ∀ (ss : List Stmt), Stmt.AreAddressable ss →
    ∀ s ∈ ss, Kind.statement.InRange s
  | [], _ => nofun
  | s :: others, h => List.forall_mem_cons.2 ⟨s.inRange h.1, Stmt.inRange_of_mem others h.2⟩

/-- An addressable block is in range. -/
theorem Block.inRange : ∀ (k : Block), k.IsAddressable → Kind.block.InRange k
  | ⟨statements, _⟩, h =>
    .node rfl (List.forall_mem_cons.2 ⟨.row (k := .statements) rfl
      (Stmt.inRange_of_mem statements h.1), List.forall_mem_singleton.2 (Span.inRange h.2)⟩)

end

/-- An addressable document is in range. -/
lemma Document.inRange {d : Document} (h : d.IsAddressable) : Kind.document.InRange d :=
  .node rfl (List.forall_mem_cons.2 ⟨.leaf (k := .word32) rfl trivial,
    List.forall_mem_singleton.2 (.row (k := .statements) rfl
      (Stmt.inRange_of_mem d.program.statements h))⟩)

/-! ## Texts -/

/-- What is nested less deep than something else is read if the other one is. -/
lemma JsonLibrary.admits_of_depth_le {lib : JsonLibrary} {j j' : Json} (le : j.depth ≤ j'.depth)
    (shallow : lib.admits j') : lib.admits j := by
  rw [admits, Option.all_eq_true] at shallow ⊢
  intro limit mem
  exact decide_eq_true (Nat.le_trans le (of_decide_eq_true (shallow limit mem)))

namespace JsonLibrary.Lawful

open Json

variable {lib : JsonLibrary} {k : Kind} {v : k.Value} {j : Json} {t : String}

/-- What reads as a value has no number out of range. -/
lemma inRange_of_decode? (h : lib.Lawful) (read : lib.decode? k j = some v) : k.InRange v :=
  (h.decode?_iff.1 read).inRange

/-- A value whose numbers are in range is read from what is written for it. -/
theorem decode?_encode (h : lib.Lawful) (inRange : k.InRange v) :
    lib.decode? k (lib.encode k v) = some v :=
  h.decode?_iff.2 (h.presents_encode inRange)

/-- A text of a value is read as it, unless the value is nested too deep. -/
lemma read?_of_isText (h : lib.Lawful) (text : IsText lib.takes j t) :
    lib.read? t = if lib.admits j then some j else none := by
  split
  · rename_i shallow
    exact h.read text shallow
  · rename_i deep
    exact h.guard text (Bool.eq_false_iff.2 deep)

/-- What is read is nested no deeper than the library reads. -/
lemma admits_of_read? (h : lib.Lawful) (read : lib.read? t = some j) : lib.admits j := by
  by_contra deep
  rw [h.guard (h.sound read) (Bool.eq_false_iff.2 deep)] at read
  cases read

end JsonLibrary.Lawful

namespace Document

open JsonLibrary

variable {lib : JsonLibrary} {d d' : Document} {t : String}

/-- A document whose spans are made of words has a text, which is read as the document, unless it is
nested too deep. -/
lemma exists_text (h : lib.Lawful) (inRange : Kind.document.InRange d) :
    ∃ t, d.text lib = .ok t ∧ Json.IsText lib.takes (lib.encode .document d) t ∧
      ofText? lib t = if lib.admits (lib.encode .document d) then some d else none := by
  obtain ⟨t, written, text⟩ := h.pretty (h.encode_plain inRange)
  refine ⟨t, written, text, ?_⟩
  rw [ofText?, h.read?_of_isText text]
  split
  · exact h.decode?_encode inRange
  · rfl

/-- A document that has been read is read again from its own text. -/
lemma exists_text_of_ofText? (h : lib.Lawful) (read : ofText? lib t = some d) :
    ∃ t', d.text lib = .ok t' ∧ ofText? lib t' = some d := by
  obtain ⟨j, found, decoded⟩ := Option.bind_eq_some_iff.1 read
  obtain ⟨t', written, -, again⟩ := exists_text h (h.inRange_of_decode? decoded)
  have shallow := admits_of_depth_le (h.depth_encode_le (h.decode?_iff.1 decoded))
    (h.admits_of_read? found)
  exact ⟨t', written, by rw [again, if_pos shallow]⟩

/-- No two documents whose spans are made of words have the same text. -/
lemma text_injective (h : lib.Lawful) (words : d.IsAddressable) (words' : d'.IsAddressable)
    (same : d.text lib = d'.text lib) : d = d' := by
  obtain ⟨t, written, text, -⟩ := exists_text h (inRange words)
  obtain ⟨t', written', text', -⟩ := exists_text h (inRange words')
  cases (written.symm.trans same).trans written'
  have read := h.decode?_encode (inRange words)
  rw [text.unique text', h.decode?_encode (inRange words')] at read
  exact (Option.some.inj read).symm

/-- Whatever the library, as long as it is lawful: a document whose spans are made of words of 64
bits is read from what is written for it. It has a text, from which it is read as well, unless it is
nested too deep for the library. No two such documents have the same text. And every text that is
read as a document leads to a text, that of the document, from which this document is read again. -/
theorem text_readable (h : lib.Lawful) :
    (∀ d : Document, d.IsAddressable →
      lib.decode? .document (lib.encode .document d) = some d ∧
        ∃ t, d.text lib = .ok t ∧
          ofText? lib t = if lib.admits (lib.encode .document d) then some d else none) ∧
      Set.InjOn (text lib) {d | d.IsAddressable} ∧
      ∀ t d, ofText? lib t = some d → ∃ t', d.text lib = .ok t' ∧ ofText? lib t' = some d := by
  refine ⟨fun d words => ⟨h.decode?_encode (inRange words), ?_⟩,
    fun d words d' words' => text_injective h words words',
    fun t d => exists_text_of_ofText? h⟩
  obtain ⟨t, written, -, read⟩ := exists_text h (inRange words)
  exact ⟨t, written, read⟩

/-- The document for a string with a quote, a backslash and a line break in it. -/
def quotedString : Document :=
  .ofProgram ⟨[.exprStmt (.literal (.string "\"\\\n") ⟨0, 5⟩) ⟨0, 5⟩]⟩

/-- The standard library reads the document from its text. -/
theorem text_readable_quotedString : JsonLibrary.standard.Lawful ∧
    ∃ t, quotedString.text .standard = .ok t ∧ ofText? .standard t = some quotedString := by
  have words : quotedString.IsAddressable :=
    ⟨⟨⟨by decide, by decide⟩, by decide, by decide⟩, trivial⟩
  have shallow :
      JsonLibrary.standard.admits (JsonLibrary.standard.encode .document quotedString) := by
    decide
  obtain ⟨-, t, written, read⟩ := (text_readable standard_lawful).1 quotedString words
  rw [if_pos shallow] at read
  exact ⟨standard_lawful, t, written, read⟩

end Document

end Monkey
