import Monkey.Diagnostic.Report
import Monkey.Proofs.Diagnostic.Location
import Monkey.Proofs.Text.Numeral
import Monkey.Proofs.Text.Stops
import Mathlib.Data.List.Basic

/-!
# The mark in a report

A report shows the line of the place, and below it a mark. The line stands behind its number, which
takes up two columns and more if it has more digits; the mark stands behind two blanks, whatever the
number. So the mark is under the place as long as the number has two digits at most. Main statement:
`report_aligned_iff`.
-/

namespace Monkey.Diagnostic

/-- What is wrong and where, above the line of the place. -/
def heading (d : Diagnostic) : String :=
  "error[" ++ d.code ++ "]: " ++ d.message ++ "\n"
    ++ "  --> " ++ d.file ++ ":" ++ Numeral.ofNat d.line ++ ":" ++ Numeral.ofNat d.column ++ "\n"
    ++ "   |"

/-- What stands in front of the line of the place. -/
def gutter (d : Diagnostic) : String := Text.padLeft 2 (Numeral.ofNat d.line) ++ " | "

/-- The line below it: the mark, and the label beside it. -/
def markLine (d : Diagnostic) : String :=
  "   | " ++ Text.repeated ' ' (d.column - 1) ++ Text.repeated '^' d.length
    ++ (if d.label.isEmpty then "" else " " ++ d.label)

/-- The hint, if there is one. -/
def hint (d : Diagnostic) : String :=
  match d.help with
  | none => ""
  | some help => "   = help: " ++ help ++ "\n"

/-- How many marks stand side by side in a line, from the first one on. -/
def marks (line : String) : Nat :=
  ((line.toList.drop (line.toList.idxOf '^')).takeWhile (· == '^')).length

variable {d : Diagnostic} {source : String}

/-- A report is made up of lines. -/
lemma report_eq (some : d.snippet ≠ "") (marked : d.length ≠ 0) :
    d.report = d.heading ++ "\n" ++ (d.gutter ++ d.snippet) ++ "\n" ++ d.markLine ++ "\n"
      ++ d.hint := by
  have shown : d.snippet.isEmpty = false :=
    Bool.eq_false_iff.2 fun empty => some (String.isEmpty_iff.1 empty)
  have bar : "   |\n" = "   |" ++ "\n" := by decide
  unfold report heading hint
  rw [excerpt, shown, mark, if_neg marked, gutter, markLine, bar]
  cases d.help <;> simp only [Bool.false_eq_true, if_false, String.append_assoc]

/-- A located diagnostic is about something. -/
lemma length_locate_ne_zero (d : Diagnostic) (source : String) : (d.locate source).length ≠ 0 := by
  simp only [locate]
  omega

/-- The gutter is as wide as the number of the line, two columns at least, and three more. -/
lemma length_gutter (d : Diagnostic) :
    d.gutter.length = max 2 (Nat.toDigits 10 d.line).length + 3 := by
  rw [gutter, String.length_append, Text.length_padLeft, Numeral.ofNat, String.length_ofList]
  rfl

/-- The snippet of a located diagnostic is a line, and so is what stands in front of it. -/
lemma newline_not_mem (d : Diagnostic) (source : String) :
    '\n' ∉ ((d.locate source).gutter ++ (d.locate source).snippet).toList := by
  intro mem
  rw [String.toList_append, gutter, Text.padLeft, String.toList_append, String.toList_append,
    Text.toList_repeated, Numeral.ofNat, String.toList_ofList] at mem
  simp only [List.mem_append, List.mem_replicate] at mem
  rcases mem with ((⟨_, blank⟩ | digit) | bar) | snippet
  · cases blank
  · exact absurd (Numeral.isDigit_of_mem_toDigits digit) (by decide)
  · exact absurd bar (by decide)
  · rw [locate, String.toList_ofList, Place.lineAt] at snippet
    have other := List.mem_takeWhile_imp snippet
    exact absurd rfl (bne_iff_ne.1 other)

/-- The first mark stands behind the gutter and the blanks. -/
lemma toList_markLine (d : Diagnostic) :
    ∃ beside, d.markLine.toList =
        "   | ".toList ++ List.replicate (d.column - 1) ' ' ++
          (List.replicate d.length '^' ++ beside) ∧
      Text.Stops (· == '^') beside := by
  refine ⟨(if d.label.isEmpty then "" else " " ++ d.label).toList, ?_, ?_⟩
  · simp only [markLine, String.toList_append, Text.toList_repeated, List.append_assoc]
  · split
    · exact Text.stops_nil
    · rw [String.toList_append]
      exact Text.stops_cons.2 rfl

/-- The mark stands behind five characters and the columns before it, and is as long as it should
be. -/
lemma idxOf_markLine (marked : d.length ≠ 0) :
    d.markLine.toList.idxOf '^' = 5 + (d.column - 1) ∧ marks d.markLine = d.length := by
  obtain ⟨beside, line, stops⟩ := toList_markLine d
  have none : '^' ∉ "   | ".toList ++ List.replicate (d.column - 1) ' ' := by
    simp
  obtain ⟨n, length⟩ := Nat.exists_eq_succ_of_ne_zero marked
  have first : d.markLine.toList.idxOf '^' =
      ("   | ".toList ++ List.replicate (d.column - 1) ' ').length := by
    rw [line, List.idxOf_append_of_notMem none, length, List.replicate_succ, List.cons_append,
      List.idxOf_cons_self, Nat.add_zero]
  refine ⟨?_, ?_⟩
  · rw [first, List.length_append, List.length_replicate]
    rfl
  · rw [marks, first, line, List.drop_left, Text.takeWhile_append_of_stops _ stops,
      List.length_replicate]
    intro c mem
    simp [List.eq_of_mem_replicate mem]

/-- In the report of a located diagnostic the line of the place is shown with the mark below it,
which is as long as it should be. The character that the diagnostic is about stands in that line
behind as many characters as there are in the gutter and in the columns before its own; and behind
as many stands the mark, exactly if the number of the line has at most two digits. -/
theorem report_aligned_iff (d : Diagnostic) (source : String)
    (within : d.span.start ≤ source.length) (some : (d.locate source).snippet ≠ "") :
    let located := d.locate source
    let line := located.gutter ++ located.snippet
    let place := located.gutter.length + (located.column - 1)
    located.report = located.heading ++ "\n" ++ line ++ "\n" ++ located.markLine ++ "\n"
        ++ located.hint ∧
      '\n' ∉ line.toList ∧
      line.toList[place]? = (source.toList[d.span.start]?).filter (· != '\n') ∧
      marks located.markLine = located.length ∧
      (located.markLine.toList.idxOf '^' = place ↔ located.line < 100) := by
  intro located line place
  have marked : located.length ≠ 0 := length_locate_ne_zero d source
  obtain ⟨first, count⟩ := idxOf_markLine marked
  refine ⟨report_eq some marked, newline_not_mem d source, ?_, count, ?_⟩
  · have column : located.column - 1 =
        d.span.start - (Place.after (source.toList.take d.span.start)).lineStart := rfl
    have snippet : located.snippet.toList =
        Place.lineAt source.toList (Place.after (source.toList.take d.span.start)).lineStart :=
      String.toList_ofList
    rw [String.toList_append, List.getElem?_append_right (by
      rw [String.length_toList]
      exact Nat.le_add_right _ _), String.length_toList, Nat.add_sub_cancel_left, column, snippet]
    exact Place.getElem?_lineAt (by rwa [String.length_toList])
  -- The gutter is five columns wide as long as the number has two digits, and the marks stand
  -- behind five.
  · have digits : (Nat.toDigits 10 located.line).length ≤ 2 ↔ located.line < 100 :=
      Nat.length_toDigits_le_iff (by decide) (by decide)
    rw [first, ← digits]
    show 5 + (located.column - 1) = located.gutter.length + (located.column - 1) ↔ _
    rw [length_gutter]
    omega

/-- An illegal character, the only one on its line. -/
def strayAt (offset : Nat) : Diagnostic := .ofSpan "MK1004" "illegal token '@'" ⟨offset, offset + 1⟩

/-- On the second line of a source the mark is under the place. -/
theorem report_aligned_second :
    (strayAt 3).span.start ≤ "a;\n@".length ∧ ((strayAt 3).locate "a;\n@").snippet ≠ "" ∧
      let located := (strayAt 3).locate "a;\n@"
      located.markLine.toList.idxOf '^' = located.gutter.length + (located.column - 1) := by
  have within : (strayAt 3).span.start ≤ "a;\n@".length := by decide
  have shown : ((strayAt 3).locate "a;\n@").snippet ≠ "" := by decide
  exact ⟨within, shown, (report_aligned_iff _ _ within shown).2.2.2.2.2 (by decide)⟩

/-- On the hundredth line the mark is one column to the left of the place: that line's number takes
up three columns, and what stands in front of the mark is no longer for that. -/
theorem not_report_aligned_hundredth :
    let source := String.ofList (List.replicate 99 '\n' ++ ['@'])
    let located := (strayAt 99).locate source
    (strayAt 99).span.start ≤ source.length ∧ located.snippet ≠ "" ∧ located.line = 100 ∧
      located.markLine.toList.idxOf '^' + 1 = located.gutter.length + (located.column - 1) := by
  decide +kernel

end Monkey.Diagnostic
