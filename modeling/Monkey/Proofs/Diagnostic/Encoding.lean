import Monkey.Proofs.Syntax.Documents

/-!
# Diagnostics as JSON and back

A diagnostic whose numbers are words of 64 bits has a text without white space in any lawful
library. It stands on one line, whatever characters the texts in the diagnostic have, and it is read
as the diagnostic. Main statement: `Diagnostic.exists_compactText`.
-/

namespace Monkey

open Json

namespace Diagnostic

/-- All numbers of the diagnostic are words of 64 bits. -/
structure IsAddressable (d : Diagnostic) : Prop where
  span : d.span.IsAddressable
  line : d.line < Numeral.words 64
  column : d.column < Numeral.words 64
  length : d.length < Numeral.words 64

/-- The line is the text of an object, and it is read as the diagnostic. -/
def StandsOn (lib : JsonLibrary) (d : Diagnostic) (line : String) : Prop :=
  (∃ members, IsText lib.takes (.object members) line) ∧ ofText? lib line = some d

variable {lib : JsonLibrary} {d : Diagnostic}

/-- The numbers of a diagnostic that are words are in range. -/
lemma inRange (words : d.IsAddressable) : Kind.diagnostic.InRange d := by
  have text (s : String) : Kind.text.InRange s := .leaf (k := .text) rfl trivial
  have hint : Kind.hint.InRange d.help := by
    cases there : d.help with
    | none => exact .nothing (k := .hint) rfl rfl
    | some help => exact .something (k := .hint) rfl rfl (text help)
  refine .node rfl ?_
  simp only [List.forall_mem_cons, List.not_mem_nil, false_implies, implies_true, and_true]
  exact ⟨.leaf (k := .word32) rfl trivial, text d.code, text d.message, Span.inRange words.span,
    text d.file, .leaf (k := .word64) rfl words.line, .leaf (k := .word64) rfl words.column,
    .leaf (k := .word64) rfl words.length, text d.snippet, text d.label, hint⟩

/-- In a diagnostic only the span is nested. -/
lemma depth_encode_le (h : lib.Lawful) (d : Diagnostic) :
    (lib.encode .diagnostic d).depth ≤ 2 := by
  have version (n : UInt32) := Nat.le_of_eq (h.depth_encode_leaf (k := .word32) rfl n)
  have word (n : Nat) := Nat.le_of_eq (h.depth_encode_leaf (k := .word64) rfl n)
  have text (s : String) := Nat.le_of_eq (h.depth_encode_leaf (k := .text) rfl s)
  have span : (lib.encode .span d.span).depth ≤ 1 := by
    refine h.depth_encode_node (k := .span) rfl ?_
    simp only [List.forall_mem_cons, List.not_mem_nil, false_implies, implies_true, and_true]
    exact ⟨word _, word _⟩
  have hint : (lib.encode .hint d.help).depth ≤ 0 := by
    cases there : d.help with
    | none => exact Nat.le_of_eq (congrArg depth (h.encode_nothing (k := .hint) rfl rfl))
    | some help =>
      rw [h.encode_something (k := .hint) (w := help) rfl rfl]
      exact text help
  refine h.depth_encode_node (k := .diagnostic) rfl ?_
  simp only [List.forall_mem_cons, List.not_mem_nil, false_implies, implies_true, and_true]
  have deeper {n : Nat} (shallow : n ≤ 0) : n ≤ 1 := Nat.le_trans shallow (Nat.zero_le 1)
  exact ⟨deeper (version _), deeper (text _), deeper (text _), span, deeper (text _),
    deeper (word _), deeper (word _), deeper (word _), deeper (text _), deeper (text _),
    deeper hint⟩

/-- The text without white space is a line on which the diagnostic stands. -/
theorem exists_compactText (h : lib.Lawful) (words : d.IsAddressable) :
    ∃ line, d.compactText lib = .ok line ∧ d.StandsOn lib line ∧ '\n' ∉ line.toList := by
  obtain ⟨ts, tokens, written⟩ := h.compact (h.encode_plain (inRange words))
  have shallow : lib.admits (lib.encode .diagnostic d) := by
    rw [JsonLibrary.admits, Option.all_eq_true]
    exact fun limit mem => decide_eq_true (Nat.le_trans (depth_encode_le h d) (h.limit limit mem))
  have text : IsText lib.takes (lib.encode .diagnostic d) (String.ofList ts.flatten) :=
    ⟨ts, tokens, by rw [String.toList_ofList]; exact spaced_flatten ts⟩
  refine ⟨_, written, ⟨⟨_, h.encode_node (k := .diagnostic) rfl ▸ text⟩, ?_⟩, ?_⟩
  · rw [ofText?, h.read text shallow]
    exact h.decode?_encode (inRange words)
  · rw [String.toList_ofList]
    exact tokens.onOneLine.not_mem

end Diagnostic

end Monkey
