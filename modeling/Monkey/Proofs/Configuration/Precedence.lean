import Monkey.Proofs.Configuration.Sources
import Monkey.Proofs.Standard.CommandLine

/-!
# Which source counts

What is asked for with the command counts for more than the environment, the environment for more
than the project, the project for more than the global file, and each key has a default. Every key
is looked up by itself. Where the global file stands is found out once: by the first request of a
loader that gets that far, if the loader was not told. Main statement: `Loader.load_precedence`.
-/

namespace Monkey

/-- What a loader can be asked for, and where. -/
inductive Loader.Request where
  | directory (w : Surroundings) (start : Path)
  | file (w : Surroundings) (path : Path)

namespace Loader

namespace Request

/-- What the request is made in. -/
def surroundings : Request → Surroundings
  | directory w _ => w
  | file w _ => w

/-- The layer of the project is there, so that the request gets to the global file. -/
def HasProject : Request → Prop
  | directory w start => ∃ root s, w.ProjectLayer start root s
  | file w path => ∃ s : Settings, s.StandsAt w path

/-- The request finds out where the global file stands. -/
def Locates (r : Request) (path : Path) : Prop :=
  r.HasProject ∧ r.surroundings.environment.globalFile? = some path

end Request

/-- The loader after it has served a request. -/
def serve (l : Loader) : Request → Loader
  | .directory w start => (l.loadFromDirectory w start).2
  | .file w path => (l.loadFromFile w path).2

/-- The loader after it has served some requests. -/
def after (l : Loader) (earlier : List Request) : Loader := earlier.foldl serve l

/-- Where a loader, which may have been told a place, looks for the global file after it has served
some requests. -/
inductive Place (e : Environment) : Option Path → List Request → Option Path → Prop where
  | told {path earlier} :
    Place e (some path) earlier (some path)
  | now :
    Place e none [] e.globalFile?
  | located {r path others} :
    r.Locates path →
    Place e none (r :: others) (some path)
  | later {r others place} :
    (∀ path, ¬ r.Locates path) →
    Place e none others place →
    Place e none (r :: others) place

end Loader

/-- What the sources and the command make up: for each key what the first of them says that says
anything. A variable can only turn the history off, and so can the command. -/
def Sources.configuration (s : Sources) (e : Environment) (command : Command) : Configuration where
  maxCallDepth :=
    (command.maxCallDepth.or
      (s.depth.or (s.project.maxCallDepth.or s.global.maxCallDepth))).getD 1000
  prompt :=
    (command.prompt.or (s.prompt.or (s.project.prompt.or s.global.prompt))).getD ">> "
  history :=
    !command.noHistory && !e.forbidsHistory &&
      (s.project.history.or s.global.history).getD true
  historyFile := s.project.historyFile.or (s.global.historyFile.or e.historyFile?)
  projectRoot := s.root

namespace Settings

/-- The value for a key among values for each of them. -/
def Key.pick {α : Type} (maxCallDepth : Option Nat) (prompt : Option String)
    (history : Option Bool) (historyFile : Option Path) : Key α → Option α
  | .maxCallDepth => maxCallDepth
  | .prompt => prompt
  | .history => history
  | .historyFile => historyFile

/-- What a layer says about each key. -/
def Keys (s : Settings) (maxCallDepth : Option Nat) (prompt : Option String)
    (history : Option Bool) (historyFile : Option Path) : Prop :=
  ∀ (α : Type) (key : Key α), s.get? key = key.pick maxCallDepth prompt history historyFile

variable {e : Environment} {depth : Option Nat}

/-- For each key the upper layer counts for more. -/
lemma Keys.merge {lower upper : Settings} {depth depth' prompt prompt' history history' file file'}
    (h : lower.Keys depth prompt history file) (h' : upper.Keys depth' prompt' history' file') :
    (lower.merge upper).Keys (depth'.or depth) (prompt'.or prompt) (history'.or history)
      (file'.or file) := by
  intro α key
  rw [get?_merge, h, h']
  cases key <;> rfl

/-- The layer without sections says nothing. -/
lemma Keys.empty : Keys .empty none none none none := by
  intro α key
  cases key <;> rfl

/-- The variable for the limit of calls makes a layer of its own. -/
lemma depthOfEnvironment_keys (h : Surroundings.DepthVariable e depth) :
    ∃ layer, depthOfEnvironment e = .ok layer ∧ layer.Keys depth none none none := by
  cases h with
  | unset unset => exact ⟨.empty, by simp [depthOfEnvironment, depthVariable, unset], .empty⟩
  | @set text depth set read =>
    refine ⟨.ofDepth depth, ?_, fun _ key => by cases key <;> rfl⟩
    simp [depthOfEnvironment, depthVariable, set, read]

/-- The variable for the prompt makes a layer of its own. -/
lemma keys_promptVariable (e : Environment) :
    (match e.get? "MONKEY_PROMPT" with
      | some text => ofPrompt text
      | none => empty).Keys none (e.get? "MONKEY_PROMPT") none none := by
  cases e.get? "MONKEY_PROMPT" with
  | none => exact .empty
  | some text => exact fun _ key => by cases key <;> rfl

/-- The variable for the history makes a layer of its own. -/
lemma keys_historyVariable (e : Environment) :
    (match e.get? "MONKEY_NO_HISTORY" with
      | some text => if saysYes text then withoutHistory else empty
      | none => empty).Keys none none (if e.forbidsHistory then some false else none) none := by
  unfold Environment.forbidsHistory
  cases e.get? "MONKEY_NO_HISTORY" with
  | none => exact .empty
  | some text =>
    have yes : saysYes text = decide (text.toLower ∈ ["true", "1", "yes"]) := by simp [saysYes]
    simp only [yes, Option.any_some]
    split
    · exact fun _ key => by cases key <;> rfl
    · exact .empty

/-- The layer of the environment says what the variables say. -/
lemma ofEnvironment_keys (h : Surroundings.DepthVariable e depth) :
    ∃ layer, ofEnvironment e = .ok layer ∧
      layer.Keys depth (e.get? "MONKEY_PROMPT") (if e.forbidsHistory then some false else none)
        none := by
  obtain ⟨limit, eq, keys⟩ := depthOfEnvironment_keys h
  have all := (keys.merge (keys_promptVariable e)).merge (keys_historyVariable e)
  simp only [Option.none_or, Option.or_none] at all
  exact ⟨_, by rw [ofEnvironment, eq]; rfl, all⟩

/-- A variable that should hold a limit of calls is at fault if it does not. -/
lemma ofEnvironment_notADepth {text : String}
    (set : e.get? "MONKEY_MAX_CALL_DEPTH" = some text)
    (unread : Numeral.unsigned? 64 (Text.trim text) = none) :
    ofEnvironment e = .error (.notADepth "MONKEY_MAX_CALL_DEPTH" text) := by
  simp [ofEnvironment, depthOfEnvironment, depthVariable, set, unread, Except.map]

end Settings

namespace Surroundings

variable {l : Loader} {w : Surroundings} {start : Path} {place : Option Path} {global : Settings}
  {error : ConfigError}

/-- The layer of the global file is found where it is. -/
lemma GlobalLayer.globalSettings (h : w.GlobalLayer l.globalFile global) :
    l.globalSettings w = .ok global := by
  unfold Loader.globalSettings
  cases h with
  | absent none =>
    split
    · rfl
    · rename_i path eq
      simp [none path eq]
  | present eq here stands => simp [eq, here, stands.ofFile]

/-- The first fault among the sources is reported. -/
lemma FirstFault.load (h : w.FirstFault start (l.located w.environment).globalFile error) :
    (l.loadFromDirectory w start).1 = .error error := by
  have reaches {root project} (hProject : w.ProjectLayer start root project) :
      (l.loadFromDirectory w start).1 = (l.located w.environment).finish w root project := by
    rw [Loader.loadFromDirectory, hProject.project]
  cases h with
  | project nearest fault => rw [Loader.loadFromDirectory, nearest.project_fault fault]
  | global hProject eq here fault =>
    have unread : (l.located w.environment).globalSettings w = .error error := by
      simp [Loader.globalSettings, eq, here, fault.ofFile]
    rw [reaches hProject, Loader.finish, unread]
    rfl
  | depth hProject hGlobal set unread =>
    rw [reaches hProject, Loader.finish, hGlobal.globalSettings,
      Settings.ofEnvironment_notADepth set unread]
    rfl
  | @prompt _ project global _ hProject hGlobal hDepth set =>
    obtain ⟨layer, eq, keys⟩ := Settings.ofEnvironment_keys hDepth
    have prompt : ((global.merge project).merge layer).prompt = some "" := by
      refine (Settings.get?_merge _ layer .prompt).trans ?_
      rw [keys, Settings.Key.pick, set, Option.some_or]
    rw [reaches hProject, Loader.finish, hGlobal.globalSettings, eq]
    simp [bind, Except.bind, Settings.check, Settings.isValid, prompt]

end Surroundings

namespace Sources

variable {s : Sources} {l : Loader} {w : Surroundings} {start : Path} {place : Option Path}
  {command : Command} {e : Environment}

/-- No source sets an empty prompt. -/
lemma FoundIn.prompt_ne_empty (h : s.FoundIn w start place) :
    s.prompt.or (s.project.prompt.or s.global.prompt) ≠ some "" := by
  have set := h.prompt.2
  have project := h.project.prompt
  cases text : s.prompt with
  | some text' => simpa [text] using set
  | none =>
    cases key : s.project.prompt with
    | some text => simpa [key] using project
    | none => exact h.global.prompt

/-- The sources that are found make up the configuration that is loaded. -/
lemma FoundIn.load (h : s.FoundIn w start (l.located w.environment).globalFile) :
    (l.loadFromDirectory w start).1 = .ok (s.configuration w.environment ⟨false, none, none⟩) := by
  obtain ⟨layer, eq, keys⟩ := Settings.ofEnvironment_keys h.depth
  generalize merged : (s.global.merge s.project).merge layer = settings
  have sets {α : Type} (key : Settings.Key α) : settings.get? key =
      (key.pick s.depth s.prompt (if w.environment.forbidsHistory then some false else none)
        none).or ((s.project.get? key).or (s.global.get? key)) := by
    rw [← merged, Settings.get?_merge, Settings.get?_merge, keys, h.prompt.1]
  have depth : settings.maxCallDepth = _ := sets .maxCallDepth
  have prompt : settings.prompt = _ := sets .prompt
  have history : settings.history = _ := sets .history
  have historyFile : settings.historyFile = _ := sets .historyFile
  have valid : settings.check = .ok settings := by
    have filled : settings.prompt ≠ some "" := prompt ▸ h.prompt_ne_empty
    simp [Settings.check, Settings.isValid, filled]
  rw [Loader.loadFromDirectory, h.project.project]
  simp only [Loader.finish, h.global.globalSettings, eq, merged, valid, bind, Except.bind, pure,
    Except.pure, Except.ok.injEq]
  simp only [configuration, Configuration.ofSettings, depth, prompt, history, historyFile,
    Settings.Key.pick, Settings.get?, Command.prompt, Command.noHistory]
  cases w.environment.forbidsHistory <;>
    simp [Option.or_assoc, Bounds.defaultLimit, Configuration.defaultPrompt]

/-- What is asked for with the command counts for more than all sources. -/
lemma configuration_under (s : Sources) (e : Environment) (command : Command) :
    (s.configuration e ⟨false, none, none⟩).under command = s.configuration e command := by
  have nothing : (⟨false, none, none⟩ : Command).noHistory = false := rfl
  have silent : (⟨false, none, none⟩ : Command).prompt = none := rfl
  simp [configuration, Configuration.under, nothing, silent, Option.getD_or, Bool.and_comm,
    Bool.and_assoc]

/-- The prompt that counts is not empty. -/
lemma FoundIn.configuration_prompt (h : s.FoundIn w start place)
    (asked : command.prompt ≠ some "") : (s.configuration e command).prompt ≠ "" := by
  have sources := h.prompt_ne_empty
  simp only [configuration]
  cases text : command.prompt with
  | some text' => simpa [text] using asked
  | none =>
    revert sources
    cases s.prompt.or (s.project.prompt.or s.global.prompt) <;> simp

end Sources

namespace Loader

variable {l : Loader} {w : Surroundings} {start : Path} {r : Request} {earlier : List Request}
  {e : Environment} {path : Path} {told place place' : Option Path} {c : Configuration}
  {error : ConfigError} {command : Command}

/-- What is loaded is what the sources make up. -/
lemma load_eq_ok_iff :
    (l.loadFromDirectory w start).1 = .ok c ↔
      ∃ s : Sources, s.FoundIn w start (l.located w.environment).globalFile ∧
        c = s.configuration w.environment ⟨false, none, none⟩ := by
  constructor
  · intro ok
    rcases w.sources_or_fault start (l.located w.environment).globalFile with ⟨s, h⟩ | ⟨error, h⟩
    · exact ⟨s, h, Except.ok.inj (ok.symm.trans h.load)⟩
    · cases ok.symm.trans h.load
  · rintro ⟨s, h, rfl⟩
    exact h.load

/-- What a load fails with is the first fault. -/
lemma load_eq_error_iff :
    (l.loadFromDirectory w start).1 = .error error ↔
      w.FirstFault start (l.located w.environment).globalFile error := by
  constructor
  · intro failed
    rcases w.sources_or_fault start (l.located w.environment).globalFile with ⟨s, h⟩ | ⟨error', h⟩
    · cases failed.symm.trans h.load
    · cases failed.symm.trans h.load
      exact h
  · exact Surroundings.FirstFault.load

/-- The sources and the command make up what a command is carried out under. -/
lemma load_under_iff :
    (l.loadFromDirectory w start).1.map (·.under command) = .ok c ↔
      ∃ s : Sources, s.FoundIn w start (l.located w.environment).globalFile ∧
        c = s.configuration w.environment command := by
  constructor
  · intro ok
    cases loaded : (l.loadFromDirectory w start).1 with
    | error => simp [loaded, Except.map] at ok
    | ok c =>
      rw [loaded] at ok
      cases ok
      obtain ⟨s, h, rfl⟩ := load_eq_ok_iff.1 loaded
      exact ⟨s, h, s.configuration_under _ _⟩
  · rintro ⟨s, h, rfl⟩
    rw [h.load]
    exact congrArg Except.ok (s.configuration_under _ _)

/-- A variable that forbids the history is obeyed by every load. -/
lemma history_eq_false (forbids : w.environment.forbidsHistory)
    (ok : (l.loadFromDirectory w start).1 = .ok c) : c.history = false := by
  obtain ⟨s, _, rfl⟩ := load_eq_ok_iff.1 ok
  simp [Sources.configuration, forbids]

/-- A request that has its project looks up the place of the global file. -/
lemma serve_hasProject (h : r.HasProject) :
    l.serve r = l.located r.surroundings.environment := by
  cases r with
  | directory w start =>
    obtain ⟨root, s, layer⟩ := h
    simp only [serve, loadFromDirectory, layer.project, Request.surroundings]
  | file w path =>
    obtain ⟨s, stands⟩ := h
    simp only [serve, loadFromFile, stands.ofFile, Request.surroundings]

/-- A request that fails at its project leaves the loader as it is. -/
lemma serve_not_hasProject (h : ¬ r.HasProject) : l.serve r = l := by
  cases r with
  | directory w start =>
    rcases w.projectLayer_or_fault start with layer | ⟨root, error, nearest, fault⟩
    · exact absurd layer h
    · simp only [serve, loadFromDirectory, nearest.project_fault fault]
  | file w path =>
    rcases Settings.standsAt_or_faultAt w path with stands | ⟨error, fault⟩
    · exact absurd stands h
    · simp only [serve, loadFromFile, fault.ofFile]

/-- A loader that was told its file keeps it. -/
lemma serve_told (h : l.globalFile = some path) (r : Request) : l.serve r = l := by
  obtain ⟨_⟩ := l
  cases h
  by_cases project : r.HasProject
  · rw [serve_hasProject project]
    rfl
  · exact serve_not_hasProject project

/-- A request that looks for no file of the user leaves the loader as it was. -/
lemma serve_not_locates (h : l.globalFile = none) (not : ∀ path, ¬ r.Locates path) :
    l.serve r = l := by
  obtain ⟨_⟩ := l
  cases h
  by_cases project : r.HasProject
  · have homeless : r.surroundings.environment.globalFile? = none :=
      Option.eq_none_iff_forall_ne_some.2 fun path eq => not path ⟨project, eq⟩
    rw [serve_hasProject project, located, homeless]
    rfl
  · exact serve_not_hasProject project

/-- Requests are served one by one. -/
lemma after_cons (l : Loader) (r : Request) (others : List Request) :
    l.after (r :: others) = (l.serve r).after others := rfl

/-- A loader that was told its file keeps it whatever is requested. -/
lemma after_told (h : l.globalFile = some path) (earlier : List Request) :
    l.after earlier = l := by
  induction earlier with
  | nil => rfl
  | cons r others ih => rw [after_cons, serve_told h, ih]

/-- After it has served some requests a loader looks for the global file in the place for it. -/
lemma place_after (l : Loader) (earlier : List Request) (e : Environment) :
    Place e l.globalFile earlier ((l.after earlier).located e).globalFile := by
  induction earlier with
  | nil =>
    obtain ⟨_ | path⟩ := l
    · exact .now
    · exact .told
  | cons r others ih =>
    cases told : l.globalFile with
    | some path =>
      rw [after_told told, located, told]
      exact .told
    | none =>
      rw [after_cons]
      by_cases locates : ∃ path, r.Locates path
      · obtain ⟨path, here⟩ := locates
        have served : l.serve r = ⟨some path⟩ := by
          rw [serve_hasProject here.1, located, told, here.2]
          rfl
        rw [served, after_told rfl]
        exact .located here
      · have locates := not_exists.1 locates
        rw [serve_not_locates told locates]
        exact .later locates (told ▸ ih)

/-- There is one place for the file of the user at most. -/
lemma Place.unique (h : Place e told earlier place) (h' : Place e told earlier place') :
    place = place' := by
  induction h with
  | told => cases h'; rfl
  | now => cases h'; rfl
  | located here =>
    cases h' with
    | located here' => exact here.2.symm.trans here'.2
    | later not => exact absurd here (not _)
  | later not _ ih =>
    cases h' with
    | located here => exact absurd here (not _)
    | later _ rest => exact ih rest

/-- Where the user's own file does not move, it does not matter what a loader has served. -/
lemma Place.still (h : Place e told earlier place)
    (still : ∀ r ∈ earlier, r.surroundings.environment.globalFile? = e.globalFile?) :
    place = told.or e.globalFile? := by
  induction h with
  | told => rfl
  | now => rfl
  | located here => exact here.2.symm.trans (still _ List.mem_cons_self)
  | later _ _ ih => exact ih fun r mem => still r (List.mem_cons_of_mem _ mem)

/-- What a load comes to, after any requests to the same loader and with any command: either the
first fault, or for each key what the first source says that says anything. -/
theorem load_precedence (l : Loader) (earlier : List Request) (w : Surroundings) (start : Path)
    (read : ArgumentReader) (lawful : read.Lawful) (args : List String) (command : Command)
    (asked : read w.environment args = .ok command) :
    let loaded := ((l.after earlier).loadFromDirectory w start).1
    ∃ place,
      (∀ place', Place w.environment l.globalFile earlier place' ↔ place' = place) ∧
      ((∀ r ∈ earlier, r.surroundings.environment.globalFile? = w.environment.globalFile?) →
        place = l.globalFile.or w.environment.globalFile?) ∧
      ((∃ c, loaded = .ok c) ↔ ∃ s : Sources, s.FoundIn w start place) ∧
      (∀ error, loaded = .error error ↔ w.FirstFault start place error) ∧
      (∀ c, loaded.map (·.under command) = .ok c ↔
        ∃ s : Sources, s.FoundIn w start place ∧ c = s.configuration w.environment command) ∧
      (∀ c, loaded.map (·.under command) = .ok c → c.prompt ≠ "") := by
  have place := place_after l earlier w.environment
  refine ⟨_, fun place' => ⟨fun h => h.unique place, fun eq => eq ▸ place⟩, place.still, ?_,
    fun _ => load_eq_error_iff, fun _ => load_under_iff, ?_⟩
  · constructor
    · rintro ⟨c, ok⟩
      obtain ⟨s, h, _⟩ := load_eq_ok_iff.1 ok
      exact ⟨s, h⟩
    · rintro ⟨s, h⟩
      exact ⟨_, h.load⟩
  · intro c ok
    obtain ⟨s, h, rfl⟩ := load_under_iff.1 ok
    exact h.configuration_prompt (lawful.prompt asked)

/-- The text of a project's settings file. -/
def projectText : String := "repl.prompt = \"project> \""

/-- The text of a global settings file. -/
def globalText : String := "[repl]\nprompt = \"global> \"\nhistory = true"

/-- A project below which a search can start, a global file, what the library makes of the two, and
a variable that says yes. -/
def layered : Surroundings where
  files := ⟨fun path =>
    if path = ⟨"a/monkey.toml"⟩ then .ok (.file projectText.toUTF8)
    else if path = ⟨"h/.monkey/config.toml"⟩ then .ok (.file globalText.toUTF8)
    else .error .notFound⟩
  environment := ⟨[("MONKEY_NO_HISTORY", some "Yes")], some ⟨"h"⟩⟩
  readToml text :=
    if text = projectText then .ok ⟨none, some ⟨some "project> ", none, none⟩⟩
    else if text = globalText then .ok ⟨none, some ⟨some "global> ", some true, none⟩⟩
    else .error "TOML parse error"

/-- The limit is the command's, the prompt the project's, the variable has turned the history off
that the global file turns on, and the file for it is the default one. -/
theorem load_precedence_layered :
    ArgumentReader.standard layered.environment ["--max-call-depth=5"] = .ok ⟨false, some 5, none⟩ ∧
      ((Loader.new.after [.file layered ⟨"b/monkey.toml"⟩]).loadFromDirectory layered ⟨"a/b"⟩).1.map
          (·.under ⟨false, some 5, none⟩) =
        .ok ⟨5, "project> ", false, some ⟨"h/.monkey/history"⟩, some ⟨"a"⟩⟩ := by
  have asked : ArgumentReader.standard layered.environment ["--max-call-depth=5"] =
      .ok ⟨false, some 5, none⟩ := rfl
  have project : Settings.StandsAt layered ⟨"a/monkey.toml"⟩
      ⟨none, some ⟨some "project> ", none, none⟩⟩ :=
    ⟨projectText, Files.read_text (by simp [layered]), by simp [layered], by decide⟩
  have global : Settings.StandsAt layered ⟨"h/.monkey/config.toml"⟩
      ⟨none, some ⟨some "global> ", some true, none⟩⟩ :=
    ⟨globalText, Files.read_text (by simp [layered]),
      by simp [layered, projectText, globalText], by decide⟩
  have nearest : layered.NearestProject ⟨"a/b"⟩ ⟨"a"⟩ :=
    ⟨by decide +kernel, [⟨"a/b"⟩], [⟨""⟩], by decide +kernel, by decide +kernel⟩
  obtain ⟨place, -, still, -, -, configured, -⟩ :=
    load_precedence .new [.file layered ⟨"b/monkey.toml"⟩] layered ⟨"a/b"⟩ .standard
      ArgumentReader.standard_lawful _ _ asked
  have here : place = some ⟨"h/.monkey/config.toml"⟩ :=
    (still (by simp [Request.surroundings])).trans (by decide +kernel)
  have found : Sources.FoundIn ⟨some ⟨"a"⟩, _, _, none, none⟩ layered ⟨"a/b"⟩ place :=
    ⟨.present nearest project, .present here (by decide +kernel) global, .unset rfl, rfl,
      by decide⟩
  exact ⟨asked, (configured _).2 ⟨_, found, by decide +kernel⟩⟩

end Loader

end Monkey
