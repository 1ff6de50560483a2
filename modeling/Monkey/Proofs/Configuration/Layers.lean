import Monkey.Settings.Read
import Mathlib.Data.List.Basic

/-!
# Layers of settings

Layers of settings are merged one over another, from the lowest to the uppermost. Merging them is a
monoid in which every layer is idempotent, so that it does not matter in which groups layers are
merged. Of every key the uppermost layer that sets it counts, and a section that any layer has is
there in the end. Main statement: `Settings.merge_layers`.
-/

namespace Monkey

instance : Std.Associative InterpreterSettings.merge where
  assoc a b c := by simp [InterpreterSettings.merge, Option.or_assoc]

instance : Std.IdempotentOp InterpreterSettings.merge where
  idempotent a := by simp [InterpreterSettings.merge]

instance : Std.Associative SessionSettings.merge where
  assoc a b c := by simp [SessionSettings.merge, Option.or_assoc]

instance : Std.IdempotentOp SessionSettings.merge where
  idempotent a := by simp [SessionSettings.merge]

namespace Settings

/-- Some of the layers set the key, and the uppermost of these sets it to the value. -/
def LastSets {α : Type} (layers : List Settings) (key : Key α) (value : α) : Prop :=
  ∃ lower layer upper, layers = lower ++ layer :: upper ∧ layer.get? key = some value ∧
    ∀ other ∈ upper, other.get? key = none

/-- The layers merged one over another, from the first, which is the lowest, to the last. -/
def mergeAll (layers : List Settings) : Settings := layers.foldl merge empty

/-- Layers may be merged in any grouping. -/
lemma merge_assoc (a b c : Settings) : (a.merge b).merge c = a.merge (b.merge c) := by
  simp only [merge, mk.injEq]
  exact ⟨Std.Associative.assoc _ _ _, Std.Associative.assoc _ _ _⟩

/-- A layer over itself is itself. -/
lemma merge_self (a : Settings) : a.merge a = a := by
  simp only [merge, Std.IdempotentOp.idempotent]

/-- An empty layer on top adds nothing. -/
lemma merge_empty (a : Settings) : a.merge empty = a := by
  simp [merge, empty]

/-- An empty layer below adds nothing. -/
lemma empty_merge (a : Settings) : empty.merge a = a := by
  simp [merge, empty]

instance : Std.Associative merge := ⟨merge_assoc⟩

/-- A layer stands below all that are merged over it. -/
lemma mergeAll_cons (layer : Settings) (others : List Settings) :
    mergeAll (layer :: others) = layer.merge (mergeAll others) := by
  calc
    _ = others.foldl merge (empty.merge layer) := rfl
    _ = others.foldl merge (layer.merge empty) := by rw [empty_merge, merge_empty]
    _ = layer.merge (mergeAll others) := List.foldl_assoc

section Keys

variable {α : Type} {key : Key α} {value : α}

/-- The last layer that has a value under a key decides. -/
lemma get?_mergeAll_cons (layer : Settings) (others : List Settings) (key : Key α) :
    (mergeAll (layer :: others)).get? key =
      ((mergeAll others).get? key).or (layer.get? key) := by
  rw [mergeAll_cons, get?_merge]

/-- What no layer sets is not set in the end. -/
lemma get?_mergeAll_eq_none_iff (layers : List Settings) :
    (mergeAll layers).get? key = none ↔ ∀ layer ∈ layers, layer.get? key = none := by
  induction layers with
  | nil => cases key <;> simp [mergeAll, empty, get?, maxCallDepth, prompt, history, historyFile]
  | cons layer others ih =>
    rw [get?_mergeAll_cons, Option.or_eq_none_iff, ih, List.forall_mem_cons, and_comm]

/-- The uppermost layer that sets a key is the lowest one only if none of the others sets it. -/
lemma lastSets_cons (layer : Settings) (others : List Settings) :
    LastSets (layer :: others) key value ↔ LastSets others key value ∨
      (∀ other ∈ others, other.get? key = none) ∧ layer.get? key = some value := by
  constructor
  · rintro ⟨lower, last, upper, split, sets, silent⟩
    cases lower with
    | nil =>
      cases split
      exact .inr ⟨silent, sets⟩
    | cons =>
      cases split
      exact .inl ⟨_, last, upper, rfl, sets, silent⟩
  · rintro (⟨lower, last, upper, rfl, sets, silent⟩ | ⟨silent, sets⟩)
    · exact ⟨layer :: lower, last, upper, rfl, sets, silent⟩
    · exact ⟨[], layer, others, rfl, sets, silent⟩

/-- A key has the value that the uppermost layer gives it. -/
lemma get?_mergeAll_eq_some_iff (layers : List Settings) :
    (mergeAll layers).get? key = some value ↔ LastSets layers key value := by
  induction layers with
  | nil =>
    have unset : (mergeAll []).get? key = none := (get?_mergeAll_eq_none_iff []).2 nofun
    simp [unset, LastSets]
  | cons layer others ih =>
    rw [get?_mergeAll_cons, Option.or_eq_some_iff, ih, get?_mergeAll_eq_none_iff, lastSets_cons]

end Keys

/-- What two layers have together if one of them has it, the layers have in the end if one of them
has it. -/
lemma mergeAll_iff_exists {P : Settings → Prop} (bottom : ¬ P empty)
    (step : ∀ lower upper : Settings, P (lower.merge upper) ↔ P lower ∨ P upper)
    (layers : List Settings) : P (mergeAll layers) ↔ ∃ layer ∈ layers, P layer := by
  induction layers with
  | nil => simpa [mergeAll] using bottom
  | cons layer others ih => rw [mergeAll_cons, step, ih, List.exists_mem_cons_iff]

/-- Settings are refused exactly if their prompt is empty. -/
lemma check_eq_error_iff {s : Settings} {error : ConfigError} :
    s.check = .error error ↔ error = .emptyPrompt ∧ s.get? .prompt = some "" := by
  simp only [check, isValid, get?, bne_iff_ne, ne_eq, ite_not]
  split
  · rename_i blank
    simp only [Except.error.injEq, blank, and_true]
    exact eq_comm
  · rename_i filled
    simp [filled]

/-- Settings are let through exactly if their prompt is not empty. -/
lemma check_eq_ok_iff {s s' : Settings} :
    s.check = .ok s' ↔ s' = s ∧ s.get? .prompt ≠ some "" := by
  simp only [check, isValid, get?, bne_iff_ne, ne_eq, ite_not]
  split
  · rename_i blank
    simp [blank]
  · rename_i filled
    simp only [Except.ok.injEq, filled, not_false_eq_true, and_true]
    exact eq_comm

/-- Merging is a monoid with an idempotent operation, where the last writer wins: after all layers
have been merged, every key has the value that the last layer gives that sets it, a section is there
if a layer has it, and the whole can be used unless the last layer that sets a prompt leaves it
empty. -/
theorem merge_layers :
    (∀ a b c : Settings, (a.merge b).merge c = a.merge (b.merge c) ∧
      a.merge empty = a ∧ empty.merge a = a ∧ a.merge a = a) ∧
    ∀ layers : List Settings,
      (∀ (α : Type) (key : Key α) (value : α),
        (mergeAll layers).get? key = some value ↔ LastSets layers key value) ∧
      (∀ (α : Type) (key : Key α),
        (mergeAll layers).get? key = none ↔ ∀ layer ∈ layers, layer.get? key = none) ∧
      ((mergeAll layers).interpreter.isSome ↔ ∃ layer ∈ layers, layer.interpreter.isSome) ∧
      ((mergeAll layers).session.isSome ↔ ∃ layer ∈ layers, layer.session.isSome) ∧
      (∀ error, (mergeAll layers).check = .error error ↔
        error = .emptyPrompt ∧ LastSets layers .prompt "") ∧
      ((∀ layer ∈ layers, layer.check = .ok layer) →
        (mergeAll layers).check = .ok (mergeAll layers)) := by
  refine ⟨fun a b c => ⟨merge_assoc a b c, merge_empty a, empty_merge a, merge_self a⟩, ?_⟩
  intro layers
  refine ⟨fun _ _ _ => get?_mergeAll_eq_some_iff layers,
    fun _ _ => get?_mergeAll_eq_none_iff layers, ?_, ?_, fun error => ?_, fun valid => ?_⟩
  · refine mergeAll_iff_exists (P := fun s => s.interpreter.isSome) Bool.false_ne_true
      (fun _ _ => ?_) layers
    simp [merge]
  · refine mergeAll_iff_exists (P := fun s => s.session.isSome) Bool.false_ne_true
      (fun _ _ => ?_) layers
    simp [merge]
  · rw [check_eq_error_iff, get?_mergeAll_eq_some_iff]
  · rw [check_eq_ok_iff, ne_eq, get?_mergeAll_eq_some_iff]
    refine ⟨rfl, ?_⟩
    -- A blank prompt would be that of a layer, and every layer was checked.
    rintro ⟨lower, last, upper, rfl, blank, _⟩
    have usable := valid last (List.mem_append_right _ List.mem_cons_self)
    exact (check_eq_ok_iff.1 usable).2 blank

/-- A layer that sets three keys, and one over it that sets one of them, with a section that is
empty. -/
def overlaid : List Settings :=
  [⟨some ⟨some 5⟩, some ⟨some "> ", some true, none⟩⟩, ⟨some .empty, some ⟨none, some false, none⟩⟩]

/-- The upper layer overrides the key that it sets and no other. -/
theorem merge_layers_overlaid :
    (∀ layer ∈ overlaid, layer.check = .ok layer) ∧
      (mergeAll overlaid).check = .ok (mergeAll overlaid) ∧
      (mergeAll overlaid).get? .maxCallDepth = some 5 ∧
      (mergeAll overlaid).get? .prompt = some "> " ∧
      (mergeAll overlaid).get? .history = some false := by
  have valid : ∀ layer ∈ overlaid, layer.check = .ok layer := by
    simp [overlaid, check_eq_ok_iff, get?, prompt]
  obtain ⟨sets, -, -, -, -, keepsValid⟩ := merge_layers.2 overlaid
  refine ⟨valid, keepsValid valid, (sets Nat .maxCallDepth 5).2 ?_,
    (sets String .prompt "> ").2 ?_, (sets Bool .history false).2 ?_⟩
  · exact ⟨[], _, _, rfl, rfl, by decide⟩
  · exact ⟨[], _, _, rfl, rfl, by decide⟩
  · exact ⟨[_], _, [], rfl, rfl, List.forall_mem_nil _⟩

end Settings

end Monkey
