import Monkey.Configuration
import Mathlib.Tactic.Lemma

/-!
# What a configuration is made of

The layers that a configuration comes from, each found in the surroundings or at fault there: the
file of the project, the file of the user, and two variables. A source that is absent says nothing;
one that is present must be readable, and whether a text holds settings is up to the library. The
sources are looked at in order, so that of several faults the first one is reported. Main statement:
`Surroundings.sources_or_fault`.
-/

namespace Monkey

/-- A file of text can be read. -/
lemma Files.read_text {files : Files} {path : Path} {text : String}
    (h : files.lookup path = .ok (.file text.toUTF8)) : files.read path = .ok text := by
  have decoded : String.fromUTF8? text.toUTF8 = some text := by
    rw [String.fromUTF8?, String.toUTF8_eq_toByteArray, dif_pos text.isValidUTF8]
    rfl
  simp only [read, h, decoded]

/-- A settings file that can be used stands under the path. -/
def Settings.StandsAt (w : Surroundings) (path : Path) (s : Settings) : Prop :=
  ∃ text, w.files.read path = .ok text ∧ w.readToml text = .ok s ∧ s.prompt ≠ some ""

/-- What is wrong with the settings file that should stand under the path. -/
inductive Settings.FaultAt (w : Surroundings) (path : Path) : ConfigError → Prop where
  | notFound :
    w.files.read path = .error .notFound →
    FaultAt w path (.notFound path)
  | unreadable {error} :
    w.files.read path = .error error →
    error ≠ .notFound →
    FaultAt w path (.unreadable error)
  | malformed {text error} :
    w.files.read path = .ok text →
    w.readToml text = .error error →
    FaultAt w path (.malformed path error)
  | emptyPrompt {text s} :
    w.files.read path = .ok text →
    w.readToml text = .ok s →
    s.prompt = some "" →
    FaultAt w path .emptyPrompt

/-- Whether the variable for it says, in whatever case, that no history is to be kept. -/
def Environment.forbidsHistory (e : Environment) : Bool :=
  (e.get? "MONKEY_NO_HISTORY").any fun text => text.toLower ∈ ["true", "1", "yes"]

namespace Surroundings

/-- No directory from the given one upwards has a settings file. -/
def NoProject (w : Surroundings) (start : Path) : Prop :=
  ∀ directory ∈ start.ancestors, ¬ w.files.exists? (projectFile directory)

/-- The directory is the first one from the given one upwards that has a settings file. -/
def NearestProject (w : Surroundings) (start root : Path) : Prop :=
  w.files.exists? (projectFile root) ∧ ∃ inner outer, start.ancestors = inner ++ root :: outer ∧
    ∀ directory ∈ inner, ¬ w.files.exists? (projectFile directory)

/-- The layer of the project, and where it was found. -/
inductive ProjectLayer (w : Surroundings) (start : Path) : Option Path → Settings → Prop where
  | absent :
    w.NoProject start →
    ProjectLayer w start none .empty
  | present {root s} :
    w.NearestProject start root →
    s.StandsAt w (projectFile root) →
    ProjectLayer w start (some root) s

/-- The layer of the global file, which is looked for in one place, if there is one. -/
inductive GlobalLayer (w : Surroundings) (place : Option Path) : Settings → Prop where
  | absent :
    (∀ path ∈ place, ¬ w.files.exists? path) →
    GlobalLayer w place .empty
  | present {path s} :
    place = some path →
    w.files.exists? path →
    s.StandsAt w path →
    GlobalLayer w place s

/-- What the variable for the limit of calls says, if it is set. -/
inductive DepthVariable (e : Environment) : Option Nat → Prop where
  | unset :
    e.get? "MONKEY_MAX_CALL_DEPTH" = none →
    DepthVariable e none
  | set {text depth} :
    e.get? "MONKEY_MAX_CALL_DEPTH" = some text →
    Numeral.unsigned? 64 (Text.trim text) = some depth →
    DepthVariable e (some depth)

/-- What the variable for the prompt says, if it is set. -/
def PromptVariable (e : Environment) (prompt : Option String) : Prop :=
  e.get? "MONKEY_PROMPT" = prompt ∧ prompt ≠ some ""

/-- The first fault among the sources in their order: the file of the project, the global file, the
variable for the limit of calls, the variable for the prompt. -/
inductive FirstFault (w : Surroundings) (start : Path) (place : Option Path) :
    ConfigError → Prop where
  | project {root error} :
    w.NearestProject start root →
    Settings.FaultAt w (projectFile root) error →
    FirstFault w start place error
  | global {root project path error} :
    w.ProjectLayer start root project →
    place = some path →
    w.files.exists? path →
    Settings.FaultAt w path error →
    FirstFault w start place error
  | depth {root project global text} :
    w.ProjectLayer start root project →
    w.GlobalLayer place global →
    w.environment.get? "MONKEY_MAX_CALL_DEPTH" = some text →
    Numeral.unsigned? 64 (Text.trim text) = none →
    FirstFault w start place (.notADepth "MONKEY_MAX_CALL_DEPTH" text)
  | prompt {root project global depth} :
    w.ProjectLayer start root project →
    w.GlobalLayer place global →
    DepthVariable w.environment depth →
    w.environment.get? "MONKEY_PROMPT" = some "" →
    FirstFault w start place .emptyPrompt

end Surroundings

/-- What each source says. -/
structure Sources where
  root : Option Path
  project : Settings
  global : Settings
  depth : Option Nat
  prompt : Option String

/-- The sources as they are found in the surroundings. -/
structure Sources.FoundIn (s : Sources) (w : Surroundings) (start : Path) (place : Option Path) :
    Prop where
  project : w.ProjectLayer start s.root s.project
  global : w.GlobalLayer place s.global
  depth : Surroundings.DepthVariable w.environment s.depth
  prompt : Surroundings.PromptVariable w.environment s.prompt

section Files

variable {w : Surroundings} {path : Path} {s : Settings} {error : ConfigError}

/-- A settings file that can be used is read. -/
lemma Settings.StandsAt.ofFile (h : s.StandsAt w path) : ofFile w path = .ok s := by
  obtain ⟨text, content, parsed, prompt⟩ := h
  have valid : s.isValid := by simpa [isValid] using prompt
  simp [Settings.ofFile, content, Settings.read, parsed, check, valid]

/-- What is wrong with a settings file is reported. -/
lemma Settings.FaultAt.ofFile (h : FaultAt w path error) : ofFile w path = .error error := by
  cases h with
  | notFound content => simp [Settings.ofFile, content]
  | unreadable content other =>
    unfold Settings.ofFile
    rw [content]
    split
    · rename_i eq
      cases eq
    · rename_i eq
      cases eq
      exact absurd rfl other
    · rename_i eq
      cases eq
      rfl
  | malformed content parsed => simp [Settings.ofFile, content, Settings.read, parsed]
  | emptyPrompt content parsed prompt =>
    simp [Settings.ofFile, content, Settings.read, parsed, check, isValid, prompt]

/-- Under a path stands a settings file, or something is wrong there. -/
lemma Settings.standsAt_or_faultAt (w : Surroundings) (path : Path) :
    (∃ s, StandsAt w path s) ∨ ∃ error, FaultAt w path error := by
  cases content : w.files.read path with
  | error e =>
    by_cases missing : e = .notFound
    · exact .inr ⟨_, .notFound (missing ▸ content)⟩
    · exact .inr ⟨_, .unreadable content missing⟩
  | ok text =>
    cases parsed : w.readToml text with
    | error e => exact .inr ⟨_, .malformed content parsed⟩
    | ok s =>
      by_cases prompt : s.prompt = some ""
      · exact .inr ⟨_, .emptyPrompt content parsed prompt⟩
      · exact .inl ⟨s, text, content, parsed, prompt⟩

end Files

namespace Surroundings

variable {w : Surroundings} {start root : Path} {found place : Option Path} {s : Settings}
  {error : ConfigError}

/-- Where there is no project, none is found. -/
lemma NoProject.projectRoot? (h : w.NoProject start) : w.projectRoot? start = none := by
  simpa [NoProject, Surroundings.projectRoot?] using h

/-- The nearest project is found. -/
lemma NearestProject.projectRoot? (h : w.NearestProject start root) :
    w.projectRoot? start = some root := by
  obtain ⟨here, inner, outer, ancestors, before⟩ := h
  rw [Surroundings.projectRoot?, List.find?_eq_some_iff_append]
  exact ⟨here, inner, outer, ancestors, fun d mem => by simpa using before d mem⟩

/-- There is no project, or there is a nearest one. -/
lemma noProject_or_nearest (w : Surroundings) (start : Path) :
    w.NoProject start ∨ ∃ root, w.NearestProject start root := by
  cases found : w.projectRoot? start with
  | none =>
    left
    simpa [NoProject, Surroundings.projectRoot?] using found
  | some root =>
    obtain ⟨here, inner, outer, ancestors, before⟩ := List.find?_eq_some_iff_append.1 found
    exact .inr ⟨root, here, inner, outer, ancestors, fun d mem => by simpa using before d mem⟩

/-- The layer of the project is found where it is. -/
lemma ProjectLayer.project (h : w.ProjectLayer start found s) :
    w.project start = .ok (found, s) := by
  cases h with
  | absent none => simp [Surroundings.project, none.projectRoot?]
  | present nearest stands =>
    simp [Surroundings.project, nearest.projectRoot?, stands.ofFile, Except.map]

/-- No project sets an empty prompt. -/
lemma ProjectLayer.prompt (h : w.ProjectLayer start found s) : s.prompt ≠ some "" := by
  cases h with
  | absent => nofun
  | present _ stands => exact stands.choose_spec.2.2

/-- No global file sets an empty prompt. -/
lemma GlobalLayer.prompt (h : w.GlobalLayer place s) : s.prompt ≠ some "" := by
  cases h with
  | absent => nofun
  | present _ _ stands => exact stands.choose_spec.2.2

/-- A fault in the file of the project is all that is said of the project. -/
lemma NearestProject.project_fault (h : w.NearestProject start root)
    (fault : Settings.FaultAt w (projectFile root) error) :
    w.project start = .error error := by
  simp [Surroundings.project, h.projectRoot?, fault.ofFile, Except.map]

/-- The layer of the project is there, or its file is at fault. -/
lemma projectLayer_or_fault (w : Surroundings) (start : Path) :
    (∃ root s, w.ProjectLayer start root s) ∨
      ∃ root error, w.NearestProject start root ∧
        Settings.FaultAt w (projectFile root) error := by
  rcases w.noProject_or_nearest start with none | ⟨root, nearest⟩
  · exact .inl ⟨_, _, .absent none⟩
  · rcases Settings.standsAt_or_faultAt w (projectFile root) with ⟨s, stands⟩ | ⟨e, fault⟩
    · exact .inl ⟨_, _, .present nearest stands⟩
    · exact .inr ⟨root, e, nearest, fault⟩

/-- After the project, the layer of the global file is there, or its file is at fault. -/
lemma globalLayer_or_fault (place : Option Path) (h : w.ProjectLayer start found s) :
    (∃ s, w.GlobalLayer place s) ∨ ∃ error, w.FirstFault start place error := by
  cases place with
  | none => exact .inl ⟨_, .absent nofun⟩
  | some path =>
    by_cases here : w.files.exists? path
    · rcases Settings.standsAt_or_faultAt w path with ⟨s, stands⟩ | ⟨e, fault⟩
      · exact .inl ⟨s, .present rfl here stands⟩
      · exact .inr ⟨e, .global h rfl here fault⟩
    · refine .inl ⟨_, .absent fun path' mem => ?_⟩
      cases mem
      exact here

/-- The sources are all found, or there is a first fault among them. -/
theorem sources_or_fault (w : Surroundings) (start : Path) (place : Option Path) :
    (∃ s : Sources, s.FoundIn w start place) ∨ ∃ error, w.FirstFault start place error := by
  rcases w.projectLayer_or_fault start with ⟨root, project, hProject⟩ | ⟨root, e, nearest, fault⟩
  case inr => exact .inr ⟨e, .project nearest fault⟩
  rcases globalLayer_or_fault place hProject with ⟨global, hGlobal⟩ | fault
  case inr => exact .inr fault
  obtain ⟨depth, hDepth⟩ | ⟨text, set, malformed⟩ :
      (∃ depth, DepthVariable w.environment depth) ∨
        ∃ text, w.environment.get? "MONKEY_MAX_CALL_DEPTH" = some text ∧
          Numeral.unsigned? 64 (Text.trim text) = none := by
    cases set : w.environment.get? "MONKEY_MAX_CALL_DEPTH" with
    | none => exact .inl ⟨none, .unset set⟩
    | some text =>
      cases read : Numeral.unsigned? 64 (Text.trim text) with
      | none => exact .inr ⟨text, rfl, read⟩
      | some depth => exact .inl ⟨some depth, .set set read⟩
  case inr => exact .inr ⟨_, .depth hProject hGlobal set malformed⟩
  by_cases prompt : w.environment.get? "MONKEY_PROMPT" = some ""
  · exact .inr ⟨_, .prompt hProject hGlobal hDepth prompt⟩
  · exact .inl ⟨⟨root, project, global, depth, _⟩, hProject, hGlobal, hDepth, rfl, prompt⟩

end Surroundings

end Monkey
