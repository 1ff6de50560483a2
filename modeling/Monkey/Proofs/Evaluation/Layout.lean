import Monkey.Engine
import Monkey.Proofs.Evaluation.Shape
import Monkey.Proofs.Parser.Places
import Monkey.Proofs.Token.Layout

/-!
# Layout

Blanks and comments between tokens do not matter: whatever spacing is put in front of the tokens of
a source, the source is read as a program of the same shape, with diagnostics that say the same, and
it comes to a value of the same type that is written in the same way. The scanner, the reader and
the evaluator each know the places of tokens only to hand them on. Main statement:
`Engine.run_layout`.
-/

namespace Monkey

/-- What a diagnostic says, wherever it stands. -/
structure Diagnostic.Gist where
  code : String
  message : String
  label : String
  help : Option String
deriving DecidableEq, Repr

/-- What the diagnostic says, wherever it stands. -/
def Diagnostic.gist (d : Diagnostic) : Gist := ⟨d.code, d.message, d.label, d.help⟩

/-- The error that ended a program with this value. -/
def Value.error? : Value → Option RuntimeError
  | .error e => some e
  | _ => none

/-- Both runs are rejected, and for the same; or both come to values of one type that are written in
the same way, and are the same error if they are one; or both run out of fuel. -/
def Outcome.Agrees : Outcome → Outcome → Prop
  | .rejected ds, .rejected ds' => ds.map Diagnostic.gist = ds'.map Diagnostic.gist
  | .value v, .value v' => v.type = v'.type ∧ v.render = v'.render ∧ v.error? = v'.error?
  | .outOfFuel, .outOfFuel => True
  | _, _ => False

/-- Values of one shape are of one type, are written alike and carry the same error. -/
lemma Value.agree_of_shape_eq {v v' : Value} (h : v.shape = v'.shape) :
    v.type = v'.type ∧ v.render = v'.render ∧ v.error? = v'.error? := by
  have error (v : Value) : v.shape.error? = v.error? := by
    cases v <;> rfl
  exact ⟨by rw [← type_shape, h, type_shape], by rw [← render_shape, h, render_shape],
    by rw [← error, h, error]⟩

/-- Diagnostics of one shape have one gist. -/
lemma Diagnostic.gists_of_shapes_eq {ds ds' : List Diagnostic}
    (h : ds.map shape = ds'.map shape) : ds.map gist = ds'.map gist := by
  have same (ds : List Diagnostic) : (ds.map shape).map gist = ds.map gist := by
    rw [List.map_map]
    rfl
  rw [← same, h, same]

/-- Sources with tokens of the same shapes are read as programs of one shape, with diagnostics that
say the same. -/
lemma Reading.ofSource_alike {source source' : String}
    (h : (Token.ofSource source').map Token.shape = (Token.ofSource source).map Token.shape) :
    (ofSource source').program.shape = (ofSource source).program.shape ∧
      (ofSource source').diagnostics.map Diagnostic.gist =
        (ofSource source).diagnostics.map Diagnostic.gist := by
  have same : (ofTokens (Token.ofSource source')).shape =
      (ofTokens (Token.ofSource source)).shape := by
    rw [← ofTokens_shape, h, ofTokens_shape]
  have located (source : String) : (ofSource source).diagnostics.map Diagnostic.gist =
      (ofTokens (Token.ofSource source)).diagnostics.map Diagnostic.gist := by
    simp only [ofSource, List.map_map]
    rfl
  refine ⟨congrArg program same, ?_⟩
  rw [located, located]
  exact Diagnostic.gists_of_shapes_eq (congrArg diagnostics same)

namespace Engine

/-- A program runs without regard to places. -/
lemma runProgram_shape (b : Bounds) (e : Engine) (p : Program) :
    (e.runProgram b p.shape).1 = (e.runProgram b p).1.map Value.shape ∧
      (e.runProgram b p.shape).2.depth = (e.runProgram b p).2.depth := by
  have nothing : Store.empty.shape = Store.empty := by
    simp [Store.shape, Store.empty]
  have fresh : Store.empty.new.1.shape = Store.empty.new.1 := by
    rw [Store.new, Store.shape_push, nothing]
  have start : (⟨Store.empty.new.1, e.depth⟩ : Machine).shape = ⟨Store.empty.new.1, e.depth⟩ :=
    congrArg (Machine.mk · e.depth) fresh
  have same := p.eval_shape b Store.empty.new.2 ⟨Store.empty.new.1, e.depth⟩
  rw [start] at same
  simp only [runProgram, same]
  rcases p.eval b Store.empty.new.2 ⟨Store.empty.new.1, e.depth⟩ with ⟨_ | v, m⟩
  · exact ⟨rfl, rfl⟩
  · refine ⟨rfl, ?_⟩
    simp only [Option.map_some]
    split <;> split <;> rfl

/-- Programs of one shape run alike. -/
lemma runProgram_of_shape_eq (b : Bounds) (e : Engine) {p p' : Program}
    (h : p.shape = p'.shape) :
    (e.runProgram b p).1.map Value.shape = (e.runProgram b p').1.map Value.shape ∧
      (e.runProgram b p).2.depth = (e.runProgram b p').2.depth := by
  rw [← (e.runProgram_shape b p).1, ← (e.runProgram_shape b p).2, h, (e.runProgram_shape b p').1,
    (e.runProgram_shape b p').2]
  exact ⟨rfl, rfl⟩

/-- Sources that are read alike run alike. -/
lemma run_of_alike (b : Bounds) (e : Engine) {source source' : String}
    (program : (Reading.ofSource source').program.shape = (Reading.ofSource source).program.shape)
    (diagnostics : (Reading.ofSource source').diagnostics.map Diagnostic.gist =
      (Reading.ofSource source).diagnostics.map Diagnostic.gist) :
    (e.run b source').1.Agrees (e.run b source).1 ∧ (e.run b source').2 = (e.run b source).2 := by
  have none : (Reading.ofSource source').diagnostics.isEmpty =
      (Reading.ofSource source).diagnostics.isEmpty := by
    simpa using congrArg List.isEmpty diagnostics
  have runs := e.runProgram_of_shape_eq b program
  simp only [run, runNamed, none]
  split
  · generalize e.runProgram b (Reading.ofSource source').program = run',
      e.runProgram b (Reading.ofSource source).program = run at runs
    obtain ⟨value', m'⟩ := run'
    obtain ⟨value, m⟩ := run
    obtain ⟨same, depth⟩ := runs
    refine ⟨?_, congrArg Engine.mk depth⟩
    cases value' with
    | none =>
      cases value with
      | none => exact trivial
      | some v => cases same
    | some v' =>
      cases value with
      | none => cases same
      | some v => exact Value.agree_of_shape_eq (Option.some.inj same)
  · exact ⟨diagnostics, rfl⟩

/-- Spacing in front of the tokens of a source, wherever and however often it is put in, changes
nothing but places: the tokens are of the same kinds with the same lexemes, the program is the same
up to spans, the diagnostics say the same in the same order, and a run comes to the same. -/
theorem run_layout (b : Bounds) (e : Engine) {source source' : String}
    (h : Relation.ReflTransGen Spaced source source') :
    (Token.ofSource source').map Token.shape = (Token.ofSource source).map Token.shape ∧
      (Reading.ofSource source').program.shape = (Reading.ofSource source).program.shape ∧
      (Reading.ofSource source').diagnostics.map Diagnostic.gist =
        (Reading.ofSource source).diagnostics.map Diagnostic.gist ∧
      (e.run b source').1.Agrees (e.run b source).1 ∧
      (e.run b source').2 = (e.run b source).2 := by
  have tokens := Token.ofSource_layout h
  obtain ⟨program, diagnostics⟩ := Reading.ofSource_alike tokens
  exact ⟨tokens, program, diagnostics, run_of_alike b e program diagnostics⟩

/-- A sum with a comment and a tab in it is read and run as the sum without them. -/
theorem run_spacedSum :
    Relation.ReflTransGen Spaced plainSum spacedSum ∧
      (Reading.ofSource spacedSum).program.shape = (Reading.ofSource plainSum).program.shape ∧
      (fresh.run ⟨0, 0⟩ spacedSum).1.Agrees (fresh.run ⟨0, 0⟩ plainSum).1 := by
  obtain ⟨_, program, _, runs, _⟩ := run_layout ⟨0, 0⟩ fresh spaced_sum
  exact ⟨spaced_sum, program, runs⟩

end Engine

end Monkey
