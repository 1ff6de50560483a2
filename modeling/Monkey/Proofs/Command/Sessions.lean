import Monkey.Command.Transcript
import Monkey.Proofs.Configuration.Precedence
import Monkey.Proofs.Standard
import Monkey.Standard.Settings

/-!
# Sessions, asked for by name or not

Without a verb the program holds a session, as it does when the verb for it is named among the other
flags. The two read the same flags in the same way, and they lead to the same session, unless the
variable for the history holds a text that only the loader of configurations understands. Main
statement: `Transcript.ofRun_named`.
-/

namespace Monkey

/-- A variable that stands for the flag forbids the history for the loader, too. -/
lemma Environment.forbidsHistory_of_boolean? {e : Environment}
    (set : e.boolean? "MONKEY_NO_HISTORY" = some true) : e.forbidsHistory := by
  have value : e.entries.lookup "MONKEY_NO_HISTORY" = some (some "true") := by
    unfold boolean? at set
    split at set
    · cases set
    · cases set
    · assumption
    · cases set
  rw [forbidsHistory, get?, value]
  decide +kernel

section Runs

variable {lib : Libraries} {fuel : Nat} {w : World} {input : ByteArray} {verbose noHistory : Bool}
  {depth : Option Nat} {c : Configuration}

/-- To ask for no history changes nothing where there is none. -/
lemma Configuration.under_named (idle : noHistory = true → c.history = false) :
    c.under ⟨verbose, depth, some (.repl noHistory none)⟩ = c.under ⟨verbose, depth, none⟩ := by
  cases noHistory with
  | false => rfl
  | true => simp [under, Command.prompt, Command.noHistory, idle rfl]

namespace Command

/-- A session that is named is the session without a name: a variable that forbids the history has
done so already. -/
lemma outset_named (known : w.surroundings.environment.boolean? "MONKEY_NO_HISTORY" =
      some noHistory) :
    outset lib fuel w ⟨verbose, depth, some (.repl noHistory none)⟩ =
      outset lib fuel w ⟨verbose, depth, none⟩ := by
  simp only [outset]
  split
  · rfl
  · split
    · rfl
    · rename_i c loaded
      have idle : noHistory = true → c.history = false := by
        rintro rfl
        exact Loader.history_eq_false (Environment.forbidsHistory_of_boolean? known) loaded
      rw [Configuration.under_named idle]

/-- A command without a verb is not misuse. -/
lemma status_transcript (lib : Libraries) (fuel : Nat) (w : World) (verbose : Bool)
    (depth : Option Nat) (input : ByteArray) :
    (transcript lib fuel w ⟨verbose, depth, none⟩ input).status ≠ .misuse := by
  simp only [transcript, outset]
  split
  · rename_i finished
    split at finished
    · cases finished
      nofun
    · split at finished <;> cases finished
      nofun
  · simp only [Transcript.after, Session.transcript]
    split
    · nofun
    · split <;> nofun

end Command

end Runs

namespace Transcript

/-- To name the session or not comes to the same exactly if the variable for the history, where it
is set, is true or false. Otherwise to name it is misuse, and not to name it is not. -/
theorem ofRun_named (lib : Libraries) (h : lib.Lawful) {before after : List String} {verbose : Bool}
    {depth : Option Nat} (flags : FlagsAround before after verbose depth) (fuel : Nat) (w : World)
    (input : ByteArray) :
    let named := ofRun lib fuel w (before ++ "repl" :: after) input
    let unnamed := ofRun lib fuel w (before ++ after) input
    (named = unnamed ↔
        (w.surroundings.environment.boolean? "MONKEY_NO_HISTORY").isSome) ∧
      (w.surroundings.environment.boolean? "MONKEY_NO_HISTORY" = none →
        named.status.code? = some 2 ∧ unnamed.status.code? ≠ some 2) := by
  intro named unnamed
  have plain : unnamed = Command.transcript lib fuel w ⟨verbose, depth, none⟩ input := by
    show ofRun lib fuel w _ input = _
    rw [ofRun, h.arguments.flags flags.all]
  have proper : unnamed.status ≠ .misuse := by
    rw [plain]
    exact Command.status_transcript lib fuel w verbose depth input
  cases known : w.surroundings.environment.boolean? "MONKEY_NO_HISTORY" with
  | some noHistory =>
    refine ⟨⟨fun _ => rfl, fun _ => ?_⟩, nofun⟩
    show ofRun lib fuel w _ input = _
    rw [ofRun, h.arguments.session flags known, plain]
    simp only [Command.transcript, Command.outset_named known]
  | none =>
    obtain ⟨t, refused, misuse⟩ := h.arguments.refusal flags known
    have ended : named = t := by
      show ofRun lib fuel w _ input = _
      rw [ofRun, refused]
    -- The refusal ends as misuse, which a session never does; so the two runs differ.
    refine ⟨⟨fun same => absurd misuse ?_, nofun⟩, fun _ => ⟨?_, ?_⟩⟩
    · rw [← ended, same]
      exact proper
    · rw [ended, misuse]
      rfl
    · intro code
      cases status : unnamed.status <;> simp_all [Status.code?]

/-- No files, and one variable for the history. -/
def recording (text : String) : World where
  surroundings := {
    files := ⟨fun _ => .error .notFound⟩
    environment := ⟨[("MONKEY_NO_HISTORY", some text)], none⟩
    readToml := Settings.ofToml }
  directory := .ok ⟨"."⟩

/-- Where the variable is true, it does not matter whether the session is named behind a flag. -/
theorem ofRun_named_recording :
    ofRun .standard 1 (recording "true") ["--max-call-depth", "5", "repl"] .empty =
      ofRun .standard 1 (recording "true") ["--max-call-depth", "5"] .empty := by
  have flags : FlagsAround ["--max-call-depth", "5"] [] false (some 5) :=
    .intro (.maxCallDepth rfl .none) .none (.inl rfl) (.inr rfl)
  have named := ofRun_named .standard Libraries.standard_lawful flags 1 (recording "true") .empty
  exact named.1.2 (by decide +kernel)

/-- Where the variable is 1, a session is held without its name, and refused with it. -/
theorem not_ofRun_named_recording :
    ofRun .standard 1 (recording "1") [] .empty =
        ⟨.success, Session.greeting ++ Session.farewell, ""⟩ ∧
      (ofRun .standard 1 (recording "1") ["repl"] .empty).status.code? = some 2 ∧
      ofRun .standard 1 (recording "1") ["repl"] .empty ≠
        ofRun .standard 1 (recording "1") [] .empty := by
  have alone : ofRun .standard 1 (recording "1") [] .empty =
      ⟨.success, Session.greeting ++ Session.farewell, ""⟩ := by decide +kernel
  have named : (ofRun .standard 1 (recording "1") ["repl"] .empty).status.code? = some 2 := by
    decide +kernel
  refine ⟨alone, named, fun same => ?_⟩
  rw [same, alone] at named
  cases named

end Transcript

end Monkey
