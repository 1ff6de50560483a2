import Monkey.Proofs.Configuration.Sources
import Monkey.Standard.Settings

/-!
# Discovery of a project

The search for the file of a project as a loop, which goes from a path to its parent and of which
nothing says that it ends. It does end, since a parent is shorter, and it comes to what the search
along the list of ancestors comes to: the first path above the start that has a settings file
decides, whatever is wrong with the file. Main statement: `Surroundings.project_nearest`.
-/

namespace Monkey

namespace Path

variable {p q : Path} {n : Nat}

/-- The path above a path by some number of parents. -/
def above? (p : Path) : Nat → Option Path
  | 0 => some p
  | n + 1 => p.parent?.bind (·.above? n)

/-- The ancestors of a path are itself and the ancestors of its parent. -/
lemma ancestors_eq (p : Path) : p.ancestors = p :: (p.parent?.map ancestors).getD [] := by
  rw [ancestors]
  split
  · rename_i top
    rw [top]
    rfl
  · rename_i q parent
    simp [parent]

/-- The ancestors are the paths above, in the order of the numbers of parents. -/
lemma getElem?_ancestors (p : Path) (n : Nat) : p.ancestors[n]? = p.above? n := by
  induction n generalizing p with
  | zero => rw [ancestors_eq, List.getElem?_cons_zero, above?]
  | succ n ih =>
    rw [ancestors_eq, List.getElem?_cons_succ, above?]
    cases p.parent? with
    | none => rfl
    | some q => exact ih q

/-- Each parent is shorter by a character at least. -/
lemma length_of_above? (h : p.above? n = some q) : q.text.length + n ≤ p.text.length := by
  induction n generalizing p with
  | zero =>
    cases h
    exact Nat.le_refl _
  | succ n ih =>
    obtain ⟨parent, eq, rest⟩ := Option.bind_eq_some_iff.1 h
    have shorter := parent?_length_lt eq
    have := ih rest
    omega

/-- There are no more parents than characters. -/
lemma above?_eq_none (h : p.text.length < n) : p.above? n = none := by
  refine Option.eq_none_iff_forall_ne_some.2 fun q eq => ?_
  have := length_of_above? eq
  omega

end Path

namespace Settings

variable {w : Surroundings} {path : Path} {s : Settings} {error : ConfigError}

/-- What is read is what stands under the path. -/
lemma ofFile_eq_ok_iff : ofFile w path = .ok s ↔ s.StandsAt w path := by
  refine ⟨fun ok => ?_, StandsAt.ofFile⟩
  rcases standsAt_or_faultAt w path with ⟨s', stands⟩ | ⟨_, fault⟩
  · cases ok.symm.trans stands.ofFile
    exact stands
  · cases ok.symm.trans fault.ofFile

/-- What is reported is what is wrong under the path. -/
lemma ofFile_eq_error_iff : ofFile w path = .error error ↔ FaultAt w path error := by
  refine ⟨fun failed => ?_, FaultAt.ofFile⟩
  rcases standsAt_or_faultAt w path with ⟨_, stands⟩ | ⟨error', fault⟩
  · cases failed.symm.trans stands.ofFile
  · cases failed.symm.trans fault.ofFile
    exact fault

/-- A settings file is read from what stands under its path. -/
lemma ofFile_congr {w' : Surroundings} (read : w'.readToml = w.readToml)
    (h : w'.files.lookup path = w.files.lookup path) : ofFile w' path = ofFile w path := by
  simp only [ofFile, Files.read, Settings.read, read, h]

end Settings

namespace Surroundings

variable {w : Surroundings} {start root : Path} {n : Nat} {s : Settings} {error : ConfigError}

/-- The runs of the search as a loop, from a directory to what comes of it. A search that has no run
does not end. -/
inductive Climbs (w : Surroundings) :
    Path → Except ConfigError (Option Path × Settings) → Prop where
  | found {directory} :
    w.files.exists? (projectFile directory) →
    Climbs w directory
      ((Settings.ofFile w (projectFile directory)).map fun s => (some directory, s))
  | top {directory} :
    ¬ w.files.exists? (projectFile directory) →
    directory.parent? = none →
    Climbs w directory (.ok (none, .empty))
  | up {directory parent result} :
    ¬ w.files.exists? (projectFile directory) →
    directory.parent? = some parent →
    Climbs w parent result →
    Climbs w directory result

/-- The search is over, or it goes on above. -/
lemma projectRoot?_eq (w : Surroundings) (start : Path) :
    w.projectRoot? start = if w.files.exists? (projectFile start) then some start
      else start.parent?.bind w.projectRoot? := by
  rw [projectRoot?, Path.ancestors_eq, List.find?_cons]
  split
  · rename_i here
    rw [if_pos here]
  · rename_i missing
    rw [if_neg (by simp [missing])]
    cases start.parent? <;> rfl

/-- The search is over where there is a settings file. -/
lemma project_of_found (here : w.files.exists? (projectFile start)) :
    w.project start =
      (Settings.ofFile w (projectFile start)).map fun s => (some start, s) := by
  rw [project, projectRoot?_eq, if_pos here]

/-- The search is over where there is no parent. -/
lemma project_of_top (missing : ¬ w.files.exists? (projectFile start))
    (top : start.parent? = none) : w.project start = .ok (none, .empty) := by
  rw [project, projectRoot?_eq, if_neg missing, top]
  rfl

/-- The search goes on with the parent. -/
lemma project_of_up {parent : Path} (missing : ¬ w.files.exists? (projectFile start))
    (up : start.parent? = some parent) : w.project start = w.project parent := by
  rw [project, projectRoot?_eq, if_neg missing, up]
  rfl

/-- The loop ends, and comes to nothing but what the search along the ancestors comes to. -/
lemma climbs_iff {result : Except ConfigError (Option Path × Settings)} :
    w.Climbs start result ↔ result = w.project start := by
  constructor
  · intro run
    induction run with
    | found here => rw [project_of_found here]
    | top missing top => rw [project_of_top missing top]
    | up missing up _ ih => rw [ih, project_of_up missing up]
  · rintro rfl
    -- The induction is on the length of the path, which is what hides in the loop.
    induction size : start.text.length using Nat.strongRecOn generalizing start with
    | ind _ ih =>
      by_cases here : w.files.exists? (projectFile start)
      · rw [project_of_found here]
        exact .found here
      · cases parent : start.parent? with
        | none =>
          rw [project_of_top here parent]
          exact .top here parent
        | some above =>
          rw [project_of_up here parent]
          exact .up here parent (ih _ (size ▸ Path.parent?_length_lt parent) rfl)

/-- There is no project if none of the paths above the start has a settings file. -/
lemma noProject_iff :
    w.NoProject start ↔
      ∀ n directory, start.above? n = some directory →
        ¬ w.files.exists? (projectFile directory) := by
  simp only [NoProject, List.mem_iff_getElem?, Path.getElem?_ancestors]
  constructor
  · intro none n directory above
    exact none directory ⟨n, above⟩
  · rintro none directory ⟨n, above⟩
    exact none n directory above

/-- The first path above the start that has a settings file is the nearest project. -/
lemma nearestProject_of_above? (h : start.above? n = some root)
    (here : w.files.exists? (projectFile root))
    (before : ∀ m directory, m < n → start.above? m = some directory →
      ¬ w.files.exists? (projectFile directory)) :
    w.NearestProject start root := by
  rw [← Path.getElem?_ancestors, List.getElem?_eq_some_iff] at h
  obtain ⟨lt, rfl⟩ := h
  refine ⟨here, start.ancestors.take n, start.ancestors.drop (n + 1), ?_, fun directory mem => ?_⟩
  · rw [List.getElem_cons_drop, List.take_append_drop]
  · obtain ⟨m, eq⟩ := List.mem_iff_getElem?.1 mem
    rw [List.getElem?_take, Path.getElem?_ancestors, Option.ite_none_right_eq_some] at eq
    exact before m directory eq.1 eq.2

/-- The nearest project is read. -/
lemma NearestProject.project_eq (h : w.NearestProject start root) :
    w.project start = (Settings.ofFile w (projectFile root)).map fun s => (some root, s) := by
  simp [Surroundings.project, h.projectRoot?]

/-- Settings are found exactly if they are read there. -/
lemma NearestProject.project_eq_ok_iff (h : w.NearestProject start root) :
    w.project start = .ok (some root, s) ↔ Settings.ofFile w (projectFile root) = .ok s := by
  rw [h.project_eq]
  cases Settings.ofFile w (projectFile root) <;> simp [Except.map]

/-- The search fails exactly as reading does there. -/
lemma NearestProject.project_eq_error_iff (h : w.NearestProject start root) :
    w.project start = .error error ↔
      Settings.ofFile w (projectFile root) = .error error := by
  rw [h.project_eq]
  cases Settings.ofFile w (projectFile root) <;> simp [Except.map]

/-- No project is found exactly if there is none: a file at fault is an error instead. -/
lemma project_eq_none_iff : w.project start = .ok (none, .empty) ↔ w.NoProject start := by
  constructor
  · intro found
    refine w.noProject_or_nearest start |>.resolve_right ?_
    rintro ⟨root, nearest⟩
    rw [nearest.project_eq] at found
    cases loaded : Settings.ofFile w (projectFile root) <;> simp [loaded, Except.map] at found
  · intro none
    exact (ProjectLayer.absent none).project

/-- The project of a start is the nearest one above it. The search ends, in no more steps than the
start has characters. It finds no project exactly if no path above the start has a settings file.
Else the first path that has one is the root of the project, and what that file comes to is what
the search comes to: nothing that stands elsewhere counts, even if the file is at fault. -/
theorem project_nearest (w : Surroundings) (start : Path) :
    (∀ result, w.Climbs start result ↔ result = w.project start) ∧
    (∀ n, start.text.length < n → start.above? n = none) ∧
    (w.project start = .ok (none, .empty) ↔
      ∀ n directory, start.above? n = some directory →
        ¬ w.files.exists? (projectFile directory)) ∧
    ∀ n root, start.above? n = some root → w.files.exists? (projectFile root) →
      (∀ m directory, m < n → start.above? m = some directory →
        ¬ w.files.exists? (projectFile directory)) →
      w.project start =
          (Settings.ofFile w (projectFile root)).map (fun s => (some root, s)) ∧
        (∀ s, w.project start = .ok (some root, s) ↔ s.StandsAt w (projectFile root)) ∧
        (∀ error, w.project start = .error error ↔
          Settings.FaultAt w (projectFile root) error) ∧
        ∀ w' : Surroundings, w'.readToml = w.readToml →
          (∀ m directory, m < n → start.above? m = some directory →
            ¬ w'.files.exists? (projectFile directory)) →
          w'.files.lookup (projectFile root) = w.files.lookup (projectFile root) →
          w'.project start = w.project start := by
  refine ⟨fun _ => climbs_iff, fun _ => Path.above?_eq_none, ?_, ?_⟩
  · rw [← noProject_iff]
    exact project_eq_none_iff
  · intro n root above here before
    have nearest := nearestProject_of_above? above here before
    refine ⟨nearest.project_eq, fun s => ?_, fun error => ?_,
      fun w' read before' same => ?_⟩
    · rw [nearest.project_eq_ok_iff, Settings.ofFile_eq_ok_iff]
    · rw [nearest.project_eq_error_iff, Settings.ofFile_eq_error_iff]
    -- The other surroundings agree on this one file, and have none nearer.
    · have here' : w'.files.exists? (projectFile root) := by
        rw [Files.exists?, same]
        exact here
      have nearest' := nearestProject_of_above? above here' before'
      rw [nearest'.project_eq, nearest.project_eq, Settings.ofFile_congr read same]

/-- The system's words for a missing permission. -/
def denied : FileError := .other "Permission denied (os error 13)"

/-- A project with a settings file, and in it another file that cannot be opened. -/
def blocked : Surroundings where
  files := (FileTree.ofList
    [("monkey.toml", .file "".toUTF8), ("a/monkey.toml", .unreadable denied)]).files
  environment := ⟨[], none⟩
  readToml := Settings.ofToml

/-- The file without permission ends the search, which fails although there is a settings file
further out. -/
theorem project_nearest_blocked :
    (⟨"a/b/."⟩ : Path).above? 1 = some ⟨"a"⟩ ∧ blocked.files.exists? (projectFile ⟨"a"⟩) ∧
      blocked.files.exists? (projectFile ⟨""⟩) ∧
      blocked.project ⟨"a/b/."⟩ = .error (.unreadable denied) := by
  have above : (⟨"a/b/."⟩ : Path).above? 1 = some ⟨"a"⟩ := by decide +kernel
  have here : blocked.files.exists? (projectFile ⟨"a"⟩) := by decide +kernel
  have before : ∀ m directory, m < 1 → (⟨"a/b/."⟩ : Path).above? m = some directory →
      ¬ blocked.files.exists? (projectFile directory) := by
    intro m directory lt eq
    obtain rfl := Nat.lt_one_iff.1 lt
    cases eq
    decide +kernel
  have nearest := (project_nearest blocked ⟨"a/b/."⟩).2.2.2 1 ⟨"a"⟩ above here before
  refine ⟨above, here, by decide +kernel, (nearest.2.2.1 _).2 ?_⟩
  exact .unreadable rfl (by decide)

end Surroundings

end Monkey
