/-!
# Spans

A span is a half-open range of offsets into a source text, counted in characters. Tokens, syntax
nodes and diagnostics carry one.
-/

namespace Monkey

/-- The characters from `start` up to, but not including, `stop`. -/
structure Span where
  start : Nat
  stop : Nat
deriving DecidableEq, Repr, Inhabited

namespace Span

/-- The span of something that stands nowhere in a text. -/
def nowhere : Span := ⟨0, 0⟩

/-- The smallest span that covers both. -/
def merge (a b : Span) : Span := ⟨min a.start b.start, max a.stop b.stop⟩

/-- How many characters the span holds; none if its bounds are reversed. -/
def length (s : Span) : Nat := s.stop - s.start

/-- Whether the span holds no character. -/
def isEmpty (s : Span) : Bool := s.length == 0

/-- A span covers itself. -/
@[simp] theorem merge_self (a : Span) : a.merge a = a := by
  simp [merge]

end Span

end Monkey
