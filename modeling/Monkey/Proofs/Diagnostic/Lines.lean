import Mathlib.Algebra.Ring.Nat
import Mathlib.Data.List.Induction
import Mathlib.Data.Nat.PSub
import Monkey.Proofs.Diagnostic.Location
import Monkey.Text.Fields

/-!
# The line of a diagnostic

A diagnostic is located by one pass over its source, which counts lines up to the span and keeps the
offset where the last one begins. Behind each character the lines passed are whole lines of the
source, and their lengths add up to that offset; so line, column and snippet name the very place
where the span starts, and no difference that is taken on the way is negative. Main statements:
`Place.passed_lines`, what the pass knows behind each character, and `Diagnostic.locate_exact`.
-/

namespace Monkey

namespace Text

variable {sep : Char} {field rest : List Char}

/-- A field ends at the first separator. -/
lemma fieldsOf_append_cons (none : sep ∉ field) :
    fieldsOf sep (field ++ sep :: rest) = field :: fieldsOf sep rest := by
  induction field with
  | nil => rw [List.nil_append, fieldsOf, if_pos rfl]
  | cons c field ih =>
    rw [List.mem_cons, not_or] at none
    rw [List.cons_append, fieldsOf, if_neg (Ne.symm none.1), ih none.2]

/-- Whole fields in front of a text are fields of it. -/
lemma fieldsOf_flatMap_append {fields : List (List Char)} (none : ∀ field ∈ fields, sep ∉ field) :
    fieldsOf sep (fields.flatMap (· ++ [sep]) ++ rest) = fields ++ fieldsOf sep rest := by
  induction fields with
  | nil => rfl
  | cons field others ih =>
    obtain ⟨first, more⟩ := List.forall_mem_cons.1 none
    rw [List.flatMap_cons, List.append_assoc, List.append_assoc, List.singleton_append,
      fieldsOf_append_cons first, ih more, List.cons_append]

/-- The first field goes up to the first separator. -/
lemma head?_fieldsOf (sep : Char) (cs : List Char) :
    (fieldsOf sep cs).head? = some (cs.takeWhile (· != sep)) := by
  induction cs with
  | nil => rfl
  | cons c cs ih =>
    obtain ⟨field, others, split⟩ := List.exists_cons_of_ne_nil (fieldsOf_ne_nil sep cs)
    rw [split, List.head?_cons, Option.some.injEq] at ih
    by_cases same : c = sep
    · simp [fieldsOf, same]
    · simp [fieldsOf, same, split, ← ih]

end Text

namespace Place

variable {before rest : List Char}

/-- The position behind a character at an offset. -/
def step (p : Place) (offset : Nat) (c : Char) : Place :=
  if c = '\n' then ⟨p.line + 1, offset + 1⟩ else p

/-- One pass over the rest of a text from an offset on, which stops in front of `start`. -/
def scan (start : Nat) (p : Place) (offset : Nat) : List Char → Place
  | [] => p
  | c :: cs => if start ≤ offset then p else scan start (p.step offset c) (offset + 1) cs

/-- A place steps over one character after the other. -/
lemma after_concat (before : List Char) (c : Char) :
    after (before ++ [c]) = (after before).step before.length c := by
  by_cases newline : c = '\n'
  · simp [after, step, newline, Nat.add_assoc]
  · have none : '\n' ∉ [c] := by
      rw [List.mem_singleton]
      exact Ne.symm newline
    have start : (after (before ++ [c])).lineStart = (after before).lineStart :=
      lineStart_append none
    have line : (after (before ++ [c])).line = (after before).line + [c].count _ := line_append
    rw [List.count_eq_zero.2 none, Nat.add_zero] at line
    rw [step, if_neg newline]
    cases h : after (before ++ [c])
    cases h' : after before
    rw [h, h'] at start line
    cases start
    cases line
    rfl

/-- The pass finds the position behind the characters in front of `start`. -/
lemma scan_after (start : Nat) (before rest : List Char) :
    scan start (after before) before.length rest =
      after (before ++ rest.take (start - before.length)) := by
  induction rest generalizing before with
  | nil => rw [scan, List.take_nil, List.append_nil]
  | cons c rest ih =>
    rw [scan]
    by_cases stop : start ≤ before.length
    · rw [if_pos stop, Nat.sub_eq_zero_of_le stop, List.take_zero, List.append_nil]
    · have more : start - before.length = start - (before ++ [c]).length + 1 := by
        rw [List.length_append, List.length_singleton]
        omega
      have next := ih (before ++ [c])
      rw [after_concat, List.length_append, List.length_singleton] at next
      rw [if_neg stop, next, more, List.take_succ_cons, List.append_assoc, List.singleton_append,
        List.length_append, List.length_singleton]

/-- Behind each character the pass has counted the whole lines in front of it, and it knows how long
they are together. -/
lemma passed_lines (before : List Char) :
    ∃ (lines : List (List Char)) (line : List Char), before = lines.flatMap (· ++ ['\n']) ++ line ∧
      (∀ l ∈ lines, '\n' ∉ l) ∧ '\n' ∉ line ∧
      after before = ⟨1 + lines.length, (lines.map (·.length + 1)).sum⟩ := by
  induction before using List.reverseRecOn with
  | nil => exact ⟨[], [], rfl, nofun, nofun, rfl⟩
  | append_singleton before c ih =>
    obtain ⟨lines, line, whole, closed, isOpen, place⟩ := ih
    rw [after_concat, place]
    by_cases newline : c = '\n'
    · refine ⟨lines ++ [line], [], ?_, ?_, nofun, ?_⟩
      · simp [whole, newline]
      · intro l mem
        rcases List.mem_append.1 mem with mem | mem
        · exact closed l mem
        · rwa [List.mem_singleton.1 mem]
      · have length : before.length = (lines.map (·.length + 1)).sum + line.length := by
          simp [whole, List.length_flatMap]
        rw [step, if_pos newline, length]
        simp [Nat.add_assoc]
    · refine ⟨lines, line ++ [c], ?_, closed, ?_, ?_⟩
      · rw [whole, List.append_assoc]
      · intro mem
        rcases List.mem_append.1 mem with mem | mem
        · exact isOpen mem
        · exact newline (List.mem_singleton.1 mem).symm
      · rw [step, if_neg newline]

/-- The lines in front of an offset, and the line that it is on, are lines of the text. -/
lemma fieldsOf_lines {text : List Char} {start : Nat} (le : start ≤ text.length) :
    let place := after (text.take start)
    let lines := Text.fieldsOf '\n' text
    ((lines.take (place.line - 1)).map (·.length + 1)).sum = place.lineStart ∧
      lines[place.line - 1]? = some (lineAt text place.lineStart) ∧
      place.lineStart ≤ start ∧
      start - place.lineStart ≤ (lineAt text place.lineStart).length := by
  intro place fields
  obtain ⟨lines, line, whole, closed, isOpen, found⟩ := passed_lines (text.take start)
  have length : (lines.flatMap (· ++ ['\n'])).length = place.lineStart := by
    show _ = (after (text.take start)).lineStart
    rw [found]
    simp [List.length_flatMap]
  have number : place.line - 1 = lines.length := by
    show (after (text.take start)).line - 1 = _
    rw [found]
    exact Nat.add_sub_cancel_left 1 _
  -- The lines that were passed, then the one that was begun, then the rest of the text.
  have split : text = lines.flatMap (· ++ ['\n']) ++ (line ++ text.drop start) := by
    rw [← List.append_assoc, ← whole, List.take_append_drop]
  have cut : fields = lines ++ Text.fieldsOf '\n' (line ++ text.drop start) := by
    show Text.fieldsOf '\n' text = _
    rw [← Text.fieldsOf_flatMap_append closed, ← split]
  have behind : text.drop place.lineStart = line ++ text.drop start := by
    rw [← length]
    conv => lhs; rw [split]
    exact List.drop_left
  have offset : start = place.lineStart + line.length := by
    have total := congrArg List.length whole
    rw [List.length_take, Nat.min_eq_left le, List.length_append, length] at total
    exact total
  refine ⟨?_, ?_, ?_, ?_⟩
  · rw [cut, number, List.take_left]
    show _ = (after (text.take start)).lineStart
    rw [found]
  · rw [cut, number, List.getElem?_append_right (Nat.le_refl _), Nat.sub_self,
      ← List.head?_eq_getElem?, Text.head?_fieldsOf, lineAt, behind]
  · omega
  · rw [lineAt, behind, List.takeWhile_append_of_pos (all_of_not_mem isOpen), List.length_append]
    omega

end Place

namespace Diagnostic

/-- The diagnostic located in its source by one pass over it; nothing if a difference on the way is
negative. -/
def resolve? (d : Diagnostic) (source : String) : Option Diagnostic := do
  let place := Place.scan d.span.start ⟨1, 0⟩ 0 source.toList
  let snippet := Place.lineAt source.toList place.lineStart
  let column := (← d.span.start.psub place.lineStart) + 1
  let room := snippet.length - (← column.psub 1)
  return { d with
    line := place.line
    column := column
    length := max 1 (min d.span.length room)
    snippet := String.ofList snippet }

/-- The pass locates the diagnostic, and no difference on the way is negative. -/
lemma resolve?_eq_some (d : Diagnostic) (source : String) :
    d.resolve? source = some (d.locate source) := by
  have place : Place.scan d.span.start ⟨1, 0⟩ 0 source.toList =
      Place.after (source.toList.take d.span.start) := Place.scan_after d.span.start [] _
  have start : (Place.after (source.toList.take d.span.start)).lineStart ≤ d.span.start := by
    have bound := Place.lineStart_le (source.toList.take d.span.start)
    rw [List.length_take] at bound
    omega
  have column (n : Nat) : (n + 1).psub 1 = some n := Nat.psub_eq_sub (Nat.le_add_left 1 n)
  simp only [resolve?, place, Nat.psub_eq_sub start, Option.bind_eq_bind, Option.bind_some, column]
  rfl

/-- A located diagnostic names the place where its span starts: it is found in one pass without
negative differences, the line is numbered by the line breaks in front, the lines before it and the
columns before it add up to the offset, and the snippet is that line. The mark goes beyond the line
only at its end, and by one character; later offsets have later places; and a diagnostic once
located stays where it is. -/
theorem locate_exact (d : Diagnostic) (source : String) (within : d.span.start ≤ source.length) :
    let located := d.locate source
    let lines := Text.fields '\n' source
    d.resolve? source = some located ∧
      located.line = 1 + (source.toList.take d.span.start).count '\n' ∧
      1 ≤ located.column ∧
      ((lines.take (located.line - 1)).map (·.length + 1)).sum + (located.column - 1) =
        d.span.start ∧
      lines[located.line - 1]? = some located.snippet ∧
      1 ≤ located.length ∧
      located.column - 1 + located.length ≤ max located.snippet.length located.column ∧
      (located.snippet.length < located.column - 1 + located.length →
        located.column - 1 = located.snippet.length ∧ located.length = 1) ∧
      (∀ d' : Diagnostic, d.span.start < d'.span.start → d'.span.start ≤ source.length →
        located.Precedes (d'.locate source)) ∧
      located.locate source = located := by
  intro located lines
  have le : d.span.start ≤ source.toList.length := String.length_toList ▸ within
  obtain ⟨sum, line, before, width⟩ := Place.fieldsOf_lines le
  -- From here on the place is only known by what the pass knows of it.
  generalize place : Place.after (source.toList.take d.span.start) = p at sum line before width
  have number : located.line = p.line := by
    rw [← place]
    rfl
  have column : located.column = d.span.start - p.lineStart + 1 := by
    rw [← place]
    rfl
  have snippet : located.snippet = String.ofList (Place.lineAt source.toList p.lineStart) := by
    rw [← place]
    rfl
  have shown : located.snippet.length = (Place.lineAt source.toList p.lineStart).length := by
    rw [snippet, String.length_ofList]
  have mark : located.length =
      max 1 (min d.span.length (located.snippet.length - (located.column - 1))) := by
    rw [shown, column, ← place]
    rfl
  refine ⟨resolve?_eq_some d source, rfl, ?_, ?_, ?_, ?_, ?_, ?_, ?_, rfl⟩
  · omega
  · have lengths : (lines.take (located.line - 1)).map (·.length + 1) =
        ((Text.fieldsOf '\n' source.toList).take (p.line - 1)).map (·.length + 1) := by
      simp [lines, Text.fields, number, ← List.map_take, Function.comp_def]
    rw [lengths, sum, column]
    omega
  · rw [number, snippet]
    simp [lines, Text.fields, line]
  · omega
  · omega
  · omega
  · intro d' later within'
    exact locate_precedes later within'

/-- An illegal character on the second of two lines. -/
theorem locate_exact_secondLine :
    let d := Diagnostic.ofSpan "MK1004" "illegal token '@'" ⟨19, 20⟩
    let source := "let a = 1;\nlet b = @;"
    d.span.start ≤ source.length ∧
      (Text.fields '\n' source)[(d.locate source).line - 1]? = some (d.locate source).snippet := by
  intro d source
  have within : d.span.start ≤ source.length := by decide
  exact ⟨within, (locate_exact d source within).2.2.2.2.1⟩

end Diagnostic

end Monkey
