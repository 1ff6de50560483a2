import Monkey.Command.Transcript
import Monkey.Proofs.Configuration.Sources
import Monkey.Proofs.Diagnostic.Encoding
import Monkey.Proofs.Diagnostic.Lines
import Monkey.Proofs.Parser.Pieces
import Monkey.Proofs.Parser.Recovery
import Monkey.Proofs.Standard
import Monkey.Standard.Settings

/-!
# Running a file

The program reads a file on its own and then runs the source with no name. What it prints, and how
it ends, follows all the same from what an engine makes of the file: a value is printed, anything
else is reported, for people or as lines of JSON that read as the diagnostics. That holds as long as
the log is not asked for more than warnings. Main statement: `Transcript.ofRun_file`.
-/

namespace Monkey

/-! ## The diagnostics of a source -/

section Diagnostics

variable {source : String} {d : Diagnostic}

/-- What is reported of a source is a fault of one of its tokens. -/
lemma Reading.exists_fault (mem : d ∈ (ofSource source).diagnostics) :
    ∃ t ∈ Token.ofSource source, ∃ fault : Fault, d = (fault.diagnostic t).locate source := by
  obtain ⟨d, reported, rfl⟩ := List.mem_map.1 mem
  obtain ⟨pieces, cut⟩ := exists_isCut (Token.ofSource source)
  obtain ⟨marked, -⟩ := ofSource_ordered source
  have placed := cut.placed.mono fun _ _ => And.left
  rw [marked] at placed
  rw [cut.diagnostics] at reported
  obtain ⟨piece, inside, said⟩ := List.mem_filterMap.1 reported
  obtain ⟨_, isAt⟩ := placed.of_mem piece inside
  obtain ⟨_, found, fault, _, here, rfl⟩ := isAt.reported said
  exact ⟨found, List.mem_of_getElem? here, fault, rfl⟩

/-- The tokens of a source lie within it. -/
lemma Token.span_le {t : Token} (mem : t ∈ ofSource source) :
    t.span.start ≤ source.length ∧ t.span.stop ≤ source.length := by
  obtain ⟨ts, whole, inside, -⟩ := ofSource_within source
  rw [whole] at mem
  rcases List.mem_append.1 mem with mem | last
  · obtain ⟨-, lt, le⟩ := inside t mem
    exact ⟨Nat.le_of_lt (Nat.lt_of_lt_of_le lt le), le⟩
  · rw [List.mem_singleton.1 last]
    exact ⟨Nat.le_refl _, Nat.le_refl _⟩

/-- In a source whose offsets are words, a diagnostic that is located has numbers that are words. -/
lemma Diagnostic.locate_isAddressable (fits : source.length + 1 < Numeral.words 64)
    (start : d.span.start ≤ source.length) (stop : d.span.stop ≤ source.length) :
    (d.locate source).IsAddressable := by
  have breaks : (source.toList.take d.span.start).count '\n' ≤ source.length := by
    have count := List.count_le_length (l := source.toList.take d.span.start) (a := '\n')
    rw [List.length_take, String.length_toList] at count
    omega
  have marked : d.span.length ≤ source.length := Nat.le_trans (Nat.sub_le _ _) stop
  refine ⟨⟨?_, ?_⟩, ?_, ?_, ?_⟩
  · show d.span.start < _
    omega
  · show d.span.stop < _
    omega
  · show 1 + _ < _
    omega
  · show d.span.start - _ + 1 < _
    omega
  · show max 1 (min d.span.length _) < _
    omega

/-- So it is with all that is reported of such a source. -/
lemma Reading.diagnostics_isAddressable (fits : source.length + 1 < Numeral.words 64)
    (mem : d ∈ (ofSource source).diagnostics) : d.IsAddressable := by
  obtain ⟨t, inside, fault, rfl⟩ := exists_fault mem
  obtain ⟨start, stop⟩ := Token.span_le inside
  exact (fault.diagnostic t).locate_isAddressable fits start stop

end Diagnostics

/-! ## Lines of output -/

/-- A text that begins with whole lines has them as its first fields. -/
lemma Text.fields_join {lines : List String} (whole : ∀ line ∈ lines, '\n' ∉ line.toList)
    (rest : String) :
    fields '\n' (String.join (lines.map (· ++ "\n")) ++ rest) = lines ++ fields '\n' rest := by
  have flat : (String.join (lines.map (· ++ "\n"))).toList =
      (lines.map String.toList).flatMap (· ++ ['\n']) := by
    rw [String.toList_join, List.flatMap_map, List.flatMap_map]
    refine congrArg (List.flatMap · lines) (funext fun line => ?_)
    rw [String.toList_append]
    rfl
  have noBreak : ∀ field ∈ lines.map String.toList, '\n' ∉ field := List.forall_mem_map.2 whole
  rw [fields, String.toList_append, flat, fieldsOf_flatMap_append noBreak, List.map_append,
    List.map_map, fields]
  refine congrArg (· ++ _) ((List.map_congr_left fun line _ => ?_).trans (List.map_id lines))
  exact String.ofList_toList

/-- The notices of diagnostics as JSON are lines, and on each its diagnostic stands. -/
lemma Diagnostic.exists_listing {lib : JsonLibrary} {ds : List Diagnostic} (h : lib.Lawful)
    (words : ∀ d ∈ ds, d.IsAddressable) :
    ∃ lines, listing lib true ds = String.join (lines.map (· ++ "\n")) ∧
      List.Forall₂ (StandsOn lib) ds lines ∧ ∀ line ∈ lines, '\n' ∉ line.toList := by
  induction ds with
  | nil => exact ⟨[], rfl, .nil, nofun⟩
  | cons d ds ih =>
    obtain ⟨first, others⟩ := List.forall_mem_cons.1 words
    obtain ⟨line, written, stands, whole⟩ := exists_compactText h first
    obtain ⟨lines, listed, all, wholes⟩ := ih others
    refine ⟨line :: lines, ?_, .cons stands all, List.forall_mem_cons.2 ⟨whole, wholes⟩⟩
    have notice : d.notice lib true = line := by rw [notice, if_pos rfl, written]
    rw [listing, List.map_cons, String.join_cons, notice, List.map_cons, String.join_cons, ← listed]
    rfl

/-- The lines for diagnostics come first, and on each its diagnostic stands. -/
lemma Diagnostic.listing_stands {lib : JsonLibrary} {ds : List Diagnostic} (h : lib.Lawful)
    (words : ∀ d ∈ ds, d.IsAddressable) (rest : String) :
    let lines := Text.fields '\n' (listing lib true ds ++ rest)
    ds.length < lines.length ∧ List.Forall₂ (StandsOn lib) ds (lines.take ds.length) := by
  intro lines
  obtain ⟨own, listed, all, whole⟩ := exists_listing h words
  have split : lines = own ++ Text.fields '\n' rest := by
    rw [← Text.fields_join whole, ← listed]
  have more : Text.fields '\n' rest ≠ [] := by
    rw [Text.fields]
    exact fun none => Text.fieldsOf_ne_nil _ _ (List.map_eq_nil_iff.1 none)
  refine ⟨?_, ?_⟩
  · rw [split, List.length_append, all.length_eq]
    exact Nat.lt_add_of_pos_right (List.length_pos_iff.2 more)
  · rw [split, all.length_eq, List.take_left]
    exact all

/-! ## Runs -/

namespace Transcript

/-- The transcript for what comes of a file that can be read, if nothing is logged. -/
def ofOutcome (lib : Libraries) (file : String) (json : Bool) : Outcome → Transcript
  | .value (.error error) =>
    failure lib (error.notice lib.json json file ++ "\n")
      ⟨"Evaluation of " ++ file ++ " failed", []⟩
  | .value v => ⟨.success, Session.valueLine v, ""⟩
  | .rejected diagnostics =>
    failure lib (Diagnostic.listing lib.json json diagnostics)
      ⟨"Failed to parse " ++ file ++ " (" ++ Numeral.ofNat diagnostics.length ++ " error(s))", []⟩
  | .outOfFuel => ⟨.unfinished, "", ""⟩

variable {lib : Libraries} {log : Event → String} {b : Bounds} {files : Files}
  {file source : String} {json : Bool} {fuel : Nat} {w : World} {directory : Path}
  {args : List String} {input : ByteArray} {command : Command} {c : Configuration}

/-- A file is run as an engine runs it. -/
lemma run_eq_ofOutcome (quiet : ∀ event : Event, event.isWarning = false → log event = "")
    (readable : files.read ⟨file⟩ = .ok source) :
    Command.run lib log b files file json =
      ofOutcome lib file json (Engine.fresh.runFile b files ⟨file⟩).1 := by
  have ran : log (.ran b source) = "" := quiet _ rfl
  have finished (type : ValueType) : log (.finished type) = "" := quiet _ rfl
  unfold Command.run Engine.runFile
  rw [readable]
  simp only [Engine.run, Engine.runNamed, ran, finished, String.empty_append]
  by_cases accepted : (Reading.ofSource source).diagnostics.isEmpty
  · simp only [accepted, if_true]
    cases (Engine.fresh.runProgram b (Reading.ofSource source).program).1 with
    | none => rfl
    | some v => cases v <;> rfl
  · simp only [accepted, Bool.false_eq_true, if_false, ofOutcome, List.length_map]

/-- What an engine rejects of a file is what reading the file reports, under the name of the
file. -/
lemma rejected_runFile {ds : List Diagnostic} (readable : files.read ⟨file⟩ = .ok source)
    (rejected : (Engine.fresh.runFile b files ⟨file⟩).1 = .rejected ds) :
    ds = (Reading.ofSource source).diagnostics.map (·.inFile file) := by
  unfold Engine.runFile at rejected
  rw [readable] at rejected
  simp only [Engine.runNamed] at rejected
  split at rejected
  · cases value : (Engine.fresh.runProgram b (Reading.ofSource source).program).1 <;>
    · rw [value] at rejected
      cases rejected
  · cases rejected
    rfl

/-- The exit code tells whether there is a value. -/
lemma code?_ofOutcome (lib : Libraries) (file : String) (json : Bool) (outcome : Outcome) :
    ((ofOutcome lib file json outcome).status.code? = some 0 ↔
        ∃ v, outcome = .value v ∧ v.type ≠ .error) ∧
      ((ofOutcome lib file json outcome).status.code? = none ↔ outcome = .outOfFuel) := by
  cases outcome with
  | value v => cases v <;> simp [ofOutcome, failure, Status.code?, Value.type]
  | rejected | outOfFuel => simp [ofOutcome, failure, Status.code?]

/-- A value is printed on a line, unless it is null. -/
lemma ofOutcome_value {v : Value} (genuine : v.type ≠ .error) :
    (ofOutcome lib file json (.value v)).stderr = "" ∧
      (ofOutcome lib file json (.value v)).stdout =
        if v.type = .null then "" else v.render ++ "\n" := by
  cases v with
  | error => exact absurd rfl genuine
  | _ => exact ⟨rfl, rfl⟩

/-- Where there is no value nothing is printed, and a run that ends fails. -/
lemma ofOutcome_failure {outcome : Outcome} (ends : outcome ≠ .outOfFuel)
    (none : ∀ v, outcome = .value v → v.type = .error) :
    (ofOutcome lib file json outcome).status.code? = some 1 ∧
      (ofOutcome lib file json outcome).stdout = "" := by
  cases outcome with
  | outOfFuel => exact absurd rfl ends
  | rejected => exact ⟨rfl, rfl⟩
  | value v =>
    have error := none v rfl
    cases v with
    | error => exact ⟨rfl, rfl⟩
    | _ => cases error

/-- Running a file tells what an engine makes of it under the same configuration, unless the log is
asked for more than warnings. The exit code is 0 exactly if the engine gives a value that is no
error, and then that value is all that is printed. Otherwise a run that ends has the exit code 1 and
prints nothing, and what is rejected is reported: for people the reports come one after the other;
as JSON the diagnostics are the first lines, each of them the text of an object that is read as its
diagnostic. -/
theorem ofRun_file (h : lib.Lawful)
    (asked : lib.arguments w.surroundings.environment args = .ok command)
    (verb : command.action = some (.run file json)) (terse : command.verbose = false)
    (unset : w.surroundings.environment.entries.lookup "MONKEY_LOG" = none)
    (here : w.directory = .ok directory)
    (loaded : (Loader.new.loadFromDirectory w.surroundings directory).1 = .ok c)
    (readable : w.surroundings.files.read ⟨file⟩ = .ok source) :
    let t := ofRun lib fuel w args input
    let outcome := (Engine.fresh.runFile ⟨(c.under command).maxCallDepth, fuel⟩
      w.surroundings.files ⟨file⟩).1
    (t.status.code? = some 0 ↔ ∃ v, outcome = .value v ∧ v.type ≠ .error) ∧
      (t.status.code? = none ↔ outcome = .outOfFuel) ∧
      (∀ v, outcome = .value v → v.type ≠ .error →
        t.stderr = "" ∧ t.stdout = if v.type = .null then "" else v.render ++ "\n") ∧
      (outcome ≠ .outOfFuel → (∀ v, outcome = .value v → v.type = .error) →
        t.status.code? = some 1 ∧ t.stdout = "") ∧
      ∀ ds, outcome = .rejected ds →
        (json = false → ∃ rest, t.stderr = String.join (ds.map (·.report ++ "\n")) ++ rest) ∧
        (json = true → source.length + 1 < Numeral.words 64 →
          let lines := Text.fields '\n' t.stderr
          ds.length < lines.length ∧
            List.Forall₂ (Diagnostic.StandsOn lib.json) ds (lines.take ds.length)) := by
  intro t outcome
  -- What a run logs is no warning, so nothing of it is said.
  have quiet : ∀ event : Event, event.isWarning = false →
      lib.log w.surroundings.environment command.verbose event = "" := by
    intro event minor
    rw [terse]
    exact h.log unset minor
  have told : t = ofOutcome lib file json outcome := by
    have silent : lib.log w.surroundings.environment command.verbose (.loaded c) = "" :=
      quiet _ rfl
    show ofRun lib fuel w args input = _
    simp only [ofRun, asked, Command.transcript, Command.outset, here, loaded, verb, after, silent,
      String.empty_append]
    exact run_eq_ofOutcome quiet readable
  obtain ⟨success, unfinished⟩ := code?_ofOutcome lib file json outcome
  rw [told]
  refine ⟨success, unfinished, ?_, ofOutcome_failure, ?_⟩
  · intro v value genuine
    rw [value]
    exact ofOutcome_value genuine
  · intro ds rejected
    rw [rejected]
    refine ⟨?_, ?_⟩
    · rintro rfl
      exact ⟨_, rfl⟩
    · rintro rfl fits
      refine Diagnostic.listing_stands h.json (fun d mem => ?_) _
      rw [rejected_runFile readable rejected] at mem
      obtain ⟨d, inside, rfl⟩ := List.mem_map.1 mem
      obtain ⟨span, line, column, length⟩ := Reading.diagnostics_isAddressable fits inside
      exact ⟨span, line, column, length⟩

/-- A file whose source is a string that goes over a line break and does not end. -/
def unended : World where
  surroundings := {
    files := ⟨fun path => if path = ⟨"a.mk"⟩ then .ok (.file "\"a\nb".toUTF8) else .error .notFound⟩
    environment := ⟨[], none⟩
    readToml := Settings.ofToml }
  directory := .ok ⟨"."⟩

/-- The only token of that source. -/
def unendedToken : Token := ⟨.illegal, "\"a\nb", ⟨0, 4⟩⟩

/-- A message quotes the source with its line break, and it stands on one line all the same. -/
theorem ofRun_file_unended :
    let d := (Fault.illegal.diagnostic unendedToken).locate "\"a\nb"
    let lines :=
      Text.fields '\n' (ofRun .standard 1 unended ["run", "--json", "a.mk"] .empty).stderr
    '\n' ∈ d.message.toList ∧
      List.Forall₂ (Diagnostic.StandsOn .standard) [d.inFile "a.mk"] (lines.take 1) := by
  have readable : unended.surroundings.files.read ⟨"a.mk"⟩ = .ok "\"a\nb" :=
    Files.read_text (by simp [unended])
  have asked : Libraries.standard.arguments unended.surroundings.environment
      ["run", "--json", "a.mk"] = .ok ⟨false, none, some (.run "a.mk" true)⟩ := rfl
  have loaded : (Loader.new.loadFromDirectory unended.surroundings ⟨"."⟩).1 =
      .ok (.ofSettings unended.surroundings.environment none .empty) := by decide +kernel
  have scanned : Token.ofSource "\"a\nb" = [unendedToken] ++ [.eof 4] := by decide +kernel
  -- The string that never ends is the only token, and no statement begins with it.
  have fails : Parser.statement ([] ++ [unendedToken]) = Parser.fail .illegal [unendedToken] := by
    cbv
  have skipped : Parser.resume ([] ++ [unendedToken]) 1 = [] := by cbv
  have reported : (Reading.ofTokens (Token.ofSource "\"a\nb")).diagnostics =
      [Fault.illegal.diagnostic unendedToken] := by
    have segments := Parser.segments_of_fails (.eof 4) (List.cons_ne_nil _ _) fails
    rw [List.length_singleton, skipped, Parser.segments_nil, List.nil_append] at segments
    rw [scanned, Reading.ofTokens_marked (by decide) rfl, segments]
    rfl
  have rejected (b : Bounds) :
      (Engine.fresh.runFile b unended.surroundings.files ⟨"a.mk"⟩).1 =
        .rejected [((Fault.illegal.diagnostic unendedToken).locate "\"a\nb").inFile "a.mk"] := by
    simp [Engine.runFile, Engine.runNamed, readable, Reading.ofSource, reported]
  refine ⟨by decide, ?_⟩
  obtain ⟨-, -, -, -, rejects⟩ :=
    ofRun_file Libraries.standard_lawful asked rfl rfl rfl rfl loaded readable
  exact ((rejects _ (rejected _)).2 rfl (by decide)).2

end Transcript

end Monkey
