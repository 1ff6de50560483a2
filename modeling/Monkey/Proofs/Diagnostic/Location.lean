import Monkey.Diagnostic
import Mathlib.Data.List.TakeWhile
import Mathlib.Tactic.Lemma

/-!
# Where a diagnostic stands

The line of an offset begins behind the last line break in front of it, so between the two there is
none, and a later offset on the same line is in a later column. Main statements:
`Place.getElem?_lineAt`, the character at an offset is that of the line at the column, and
`Diagnostic.locate_precedes`, a later offset is a later place.
-/

namespace Monkey

namespace Place

variable {before behind text : List Char} {offset : Nat}

/-- In a line without a break no character is one. -/
lemma all_of_not_mem {line : List Char} (none : '\n' ∉ line) : ∀ c ∈ line, (c != '\n') = true := by
  intro c mem
  rw [bne_iff_ne]
  rintro rfl
  exact none mem

/-- Behind the beginning of the line there is no line break. -/
lemma exists_line (before : List Char) :
    ∃ front line, before = front ++ line ∧ '\n' ∉ line ∧
      (after before).lineStart = front.length := by
  have whole : before.reverse.takeWhile (· != '\n') ++ before.reverse.dropWhile (· != '\n') =
      before.reverse := List.takeWhile_append_dropWhile
  refine ⟨(before.reverse.dropWhile (· != '\n')).reverse,
    (before.reverse.takeWhile (· != '\n')).reverse, ?_, fun mem => ?_, ?_⟩
  · rw [← List.reverse_append, whole, List.reverse_reverse]
  · have other := List.mem_takeWhile_imp (List.mem_reverse.1 mem)
    exact absurd rfl (bne_iff_ne.1 other)
  · have length := congrArg List.length whole
    rw [List.length_append, List.length_reverse] at length
    rw [List.length_reverse]
    exact Nat.sub_eq_of_eq_add' length.symm

/-- A line begins at its place or before it. -/
lemma lineStart_le (before : List Char) : (after before).lineStart ≤ before.length :=
  Nat.sub_le _ _

/-- As long as no line break comes, the line begins where it did. -/
lemma lineStart_append (none : '\n' ∉ behind) :
    (after (before ++ behind)).lineStart = (after before).lineStart := by
  have all : ∀ c ∈ behind.reverse, (c != '\n') = true :=
    all_of_not_mem fun mem => none (List.mem_reverse.1 mem)
  simp only [after, List.reverse_append, List.length_append,
    List.takeWhile_append_of_pos all, List.length_reverse]
  omega

/-- Line breaks behind a place are counted on. -/
lemma line_append : (after (before ++ behind)).line = (after before).line + behind.count '\n' := by
  simp only [after, List.count_append, Nat.add_assoc]

/-- The character at an offset is that of its line at its column, unless the line ends there. -/
lemma getElem?_lineAt (le : offset ≤ text.length) :
    (lineAt text (after (text.take offset)).lineStart)[offset -
        (after (text.take offset)).lineStart]? =
      (text[offset]?).filter (· != '\n') := by
  obtain ⟨front, line, whole, none, start⟩ := exists_line (text.take offset)
  have length : offset = front.length + line.length := by
    rw [← List.length_append, ← whole, List.length_take, Nat.min_eq_left le]
  have rest : text.drop front.length = line ++ text.drop offset := by
    conv => lhs; rw [← List.take_append_drop offset text, whole, List.append_assoc]
    exact List.drop_left
  have width : offset - front.length = line.length := by omega
  have head : text[offset]? = (text.drop offset).head? := List.head?_drop.symm
  rw [start, width, head, lineAt, rest, List.takeWhile_append_of_pos (all_of_not_mem none),
    List.getElem?_append_right (Nat.le_refl _), Nat.sub_self]
  cases text.drop offset with
  | nil => rfl
  | cons c cs => by_cases newline : c = '\n' <;> simp [Option.filter_some, newline]

end Place

namespace Diagnostic

variable {d d' : Diagnostic} {source : String}

/-- The first diagnostic stands on an earlier line, or in an earlier column of the same line. -/
def Precedes (d d' : Diagnostic) : Prop :=
  d.line < d'.line ∨ d.line = d'.line ∧ d.column < d'.column

/-- In a source a later offset is a later place. -/
lemma locate_precedes (lt : d.span.start < d'.span.start) (le : d'.span.start ≤ source.length) :
    (d.locate source).Precedes (d'.locate source) := by
  have split : source.toList.take d'.span.start = source.toList.take d.span.start ++
      (source.toList.drop d.span.start).take (d'.span.start - d.span.start) := by
    rw [← List.take_add, Nat.add_sub_cancel' (Nat.le_of_lt lt)]
  have bound := Place.lineStart_le (source.toList.take d.span.start)
  rw [List.length_take, String.length_toList] at bound
  simp only [Precedes, locate, split, Place.line_append]
  by_cases newline :
      '\n' ∈ (source.toList.drop d.span.start).take (d'.span.start - d.span.start)
  · have some := List.count_pos_iff.2 newline
    exact .inl (by omega)
  · rw [Place.lineStart_append newline, List.count_eq_zero.2 newline]
    exact .inr ⟨rfl, by omega⟩

end Diagnostic

end Monkey
