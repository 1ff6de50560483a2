import Monkey.Proofs.Evaluation.Coupling

/-!
# Agreements

A coupling in which both evaluations have the same values in the same scopes. It is given by what
the scopes and the values that may be met are like; the operators then need no further thought,
because they give plain values only. Main statement: `Agreement.LawfulOn.coupling`.
-/

namespace Monkey

/-- A value that has no part in the store. -/
def Value.IsPlain : Value → Prop
  | .integer _ | .boolean _ | .string _ | .null => True
  | _ => False

/-- Constants are plain. -/
lemma Value.isPlain_ofLiteral (l : Literal) : (Value.ofLiteral l).IsPlain := by
  cases l <;> exact trivial

/-- Prefix operators give plain values. -/
lemma PrefixOp.isPlain_of_apply {op : PrefixOp} {a v : Value} (h : op.apply a = .ok v) :
    v.IsPlain := by
  cases op with
  | not =>
    cases h
    exact trivial
  | negate =>
    cases a with
    | integer n =>
      cases h
      exact trivial
    | _ => cases h

/-- Operators on integers give plain values. -/
lemma InfixOp.isPlain_of_applyIntegers {op : InfixOp} {a b : Int64} {v : Value}
    (h : op.applyIntegers a b = .ok v) : v.IsPlain := by
  cases op with
  | div =>
    simp only [applyIntegers] at h
    split at h
    · cases h
    · cases h
      exact trivial
  | _ =>
    cases h
    exact trivial

/-- Operators on texts give plain values. -/
lemma InfixOp.isPlain_of_applyStrings {op : InfixOp} {a b : String} {v : Value}
    (h : op.applyStrings a b = .ok v) : v.IsPlain := by
  cases op with
  | add | eq | ne =>
    cases h
    exact trivial
  | _ => cases h

/-- Infix operators give plain values. -/
lemma InfixOp.isPlain_of_apply {op : InfixOp} {a b v : Value} (h : op.apply a b = .ok v) :
    v.IsPlain := by
  unfold apply at h
  split at h
  · exact isPlain_of_applyIntegers h
  · exact isPlain_of_applyStrings h
  · split at h
    · cases h
    · cases op with
      | eq | ne =>
        cases h
        exact trivial
      | _ => cases h

/-- What two evaluations with the same values have in common at each moment. -/
structure Agreement where
  World : Type
  left : World → Machine
  right : World → Machine
  le : World → World → Prop
  scope : World → Nat → Prop
  value : World → Value → Prop
  stop : World → Stop → Prop
  /-- The stops with which the left evaluation may give up. -/
  givesUp : Stop → Prop
  refl : ∀ w, le w w
  trans : ∀ {w w' w''}, le w w' → le w' w'' → le w w''
  scope_mono : ∀ {w w' i}, le w w' → scope w i → scope w' i
  value_mono : ∀ {w w' v}, le w w' → value w v → value w' v
  plain : ∀ w {v}, v.IsPlain → value w v
  returned : ∀ {w v}, value w v → stop w (.returned v)
  failed : ∀ w e, stop w (.failed e)

namespace Agreement

variable (A : Agreement)

/-- The coupling by equality. -/
def coupling : Coupling where
  World := A.World
  left := A.left
  right := A.right
  le := A.le
  scopes w i j := i = j ∧ A.scope w i
  values w a b := a = b ∧ A.value w a
  stops w s t := s = t ∧ A.stop w s
  givesUp := A.givesUp
  refl := A.refl
  trans := A.trans
  scopes_mono := fun le h => ⟨h.1, A.scope_mono le h.2⟩
  values_mono := fun le h => ⟨h.1, A.value_mono le h.2⟩

/-- From a world, two computations end in a world that may follow it, with one result, unless the
left one gives up. -/
abbrev Sim {α : Type} (V : A.World → α → Prop) (w : A.World) (x y : Eval α) : Prop :=
  A.coupling.Sim (fun w a b => a = b ∧ V w a) w x y

/-- What an agreement asks of the primitive steps of evaluation, if a function is made only of code
that uses these names. -/
structure LawfulOn (names : String → Prop) : Prop where
  lookup : ∀ {w i} (name : String), A.scope w i →
    A.Sim A.value w (Eval.lookup i name) (Eval.lookup i name)
  assign : ∀ {w i v} (name : String), A.scope w i → A.value w v →
    A.coupling.Sim (fun _ _ _ => True) w (Eval.assign i name v) (Eval.assign i name v)
  makeClosure : ∀ {w i} (params : List Identifier) (body : Block),
    (∀ name ∈ body.uses, names name) → A.scope w i →
    A.Sim A.value w (Eval.makeClosure params body i) (Eval.makeClosure params body i)

/-- What an agreement asks of the primitive steps of evaluation. -/
abbrev Lawful : Prop := A.LawfulOn fun _ => True

variable {A}

/-- An operation that gives plain values keeps to any agreement. -/
lemma sim_ofExcept {w : A.World} {r : Except RuntimeError Value}
    (plain : ∀ v, r = .ok v → v.IsPlain) :
    A.Sim A.value w (Eval.ofExcept r) (Eval.ofExcept r) := by
  cases r with
  | ok v => exact .pure ⟨rfl, A.plain w (plain v rfl)⟩
  | error e => exact .throw ⟨rfl, A.failed w e⟩

/-- Values agree exactly if they are the same and each is agreed on. -/
lemma forall₂_iff {w : A.World} {as bs : List Value} :
    List.Forall₂ (A.coupling.values w) as bs ↔ as = bs ∧ ∀ v ∈ as, A.value w v := by
  constructor
  · intro h
    induction h with
    | nil => exact ⟨rfl, by simp⟩
    | cons related _ ih =>
      obtain ⟨rfl, good⟩ := related
      obtain ⟨rfl, others⟩ := ih
      exact ⟨rfl, List.forall_mem_cons.2 ⟨good, others⟩⟩
  · rintro ⟨rfl, good⟩
    exact List.forall₂_same.2 fun v mem => ⟨rfl, good v mem⟩

section Alone

variable {α : Type} {V : A.World → α → Prop} {w : A.World} {x : Eval α}

/-- What a single computation keeps to: it ends in a world that may follow, with a good result. -/
lemma sim_alone (same : ∀ w, A.left w = A.right w) (w' : A.World) (le : A.le w w')
    (machine : A.left w' = (x (A.left w)).2) (ok : ∀ a, (x (A.left w)).1 = .ok a → V w' a)
    (stop : ∀ s, (x (A.left w)).1 = .error s → A.stop w' s) : A.Sim V w x x := by
  refine .inr ⟨w', le, machine, ?_, ?_⟩
  · show A.right w' = (x (A.right w)).2
    rw [← same w', ← same w, machine]
  · show Outcomes _ _ (x (A.left w)).1 (x (A.right w)).1
    rw [← same w]
    cases run : (x (A.left w)).1 with
    | ok a => exact .ok ⟨rfl, ok a run⟩
    | error s => exact .error ⟨rfl, stop s run⟩

/-- An evaluation that agrees with itself, and never gives up, keeps what it agrees on. -/
lemma of_sim_alone (same : ∀ w, A.left w = A.right w) (never : ∀ s, ¬ A.givesUp s)
    (h : A.Sim V w x x) :
    ∃ w', A.le w w' ∧ A.left w' = (x (A.left w)).2 ∧
      (∀ a, (x (A.left w)).1 = .ok a → V w' a) ∧
      ∀ s, (x (A.left w)).1 = .error s → A.stop w' s := by
  rcases h with ⟨s, _, up⟩ | ⟨w', le, machine, _, outcomes⟩
  · exact absurd up (never s)
  · have outcomes : Outcomes _ _ (x (A.left w)).1 (x (A.right w)).1 := outcomes
    rw [← same w] at outcomes
    refine ⟨w', le, machine, fun a run => ?_, fun s run => ?_⟩
    · rw [run] at outcomes
      cases outcomes with
      | ok related => exact related.2
    · rw [run] at outcomes
      cases outcomes with
      | error related => exact related.2

end Alone

/-- An agreement that the steps on the store keep to is a lawful coupling. -/
theorem LawfulOn.coupling {names : String → Prop} (h : A.LawfulOn names) :
    A.coupling.LawfulOn names where
  constant w l := ⟨rfl, A.plain w (Value.isPlain_ofLiteral l)⟩
  null w := ⟨rfl, A.plain w trivial⟩
  truthy related := by rw [related.1]
  returned related := ⟨by rw [related.1], A.returned related.2⟩
  prefixOp op related := by
    obtain ⟨rfl, _⟩ := related
    exact sim_ofExcept fun _ => PrefixOp.isPlain_of_apply
  infixOp op related related' := by
    obtain ⟨rfl, _⟩ := related
    obtain ⟨rfl, _⟩ := related'
    exact sim_ofExcept fun _ => InfixOp.isPlain_of_apply
  lookup name hs := by
    obtain ⟨rfl, good⟩ := hs
    exact h.lookup name good
  assign name hs related := by
    obtain ⟨rfl, good⟩ := hs
    obtain ⟨rfl, good'⟩ := related
    exact h.assign name good good'
  makeClosure params body spoken hs := by
    obtain ⟨rfl, good⟩ := hs
    exact h.makeClosure params body spoken good

end Agreement

end Monkey
