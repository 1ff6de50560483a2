import Monkey.Proofs.Command.Laws
import Monkey.Standard

/-!
# The laws of command lines

Command lines are read as is documented. A prompt that is asked for is never empty, in whatever
order and spelling the arguments stand. The flags of the program as a whole are read in the same way
before a verb and after it, and a session that is named may be asked for with them on both sides.
Main statement: `ArgumentReader.standard_lawful`.
-/

namespace Monkey

namespace Given

variable {g g' : Given} {verb : Option Verb}

/-- A prompt that is given is not empty. -/
def Prompts (g : Given) : Prop := g.prompt ≠ some ""

/-- An empty prompt is refused. -/
lemma Prompts.set {value : String} {option : ValueOption} (h : g.Prompts)
    (ok : g.set value option = .ok g') : g'.Prompts := by
  cases option with
  | maxCallDepth =>
    simp only [Given.set] at ok
    split at ok <;> cases ok
    exact h
  | prompt =>
    simp only [Given.set] at ok
    split at ok <;> cases ok
    rename_i free
    rintro ⟨⟩
    exact free (by simp)

/-- The value of an option is looked at in the same way later on. -/
lemma Prompts.settle (h : g.Prompts) (ok : g.settle = .ok g') : g'.Prompts := by
  unfold Given.settle at ok
  split at ok
  · cases ok
    exact h
  · cases ok
  · exact Prompts.set (g := { g with pending := none }) h ok

/-- What is read after something else is read when that has been read. -/
lemma bind_ok {α β : Type} {x : Except Interruption α} {f : α → Except Interruption β} {b : β}
    (ok : x >>= f = .ok b) : ∃ a, x = .ok a ∧ f a = .ok b := by
  cases x with
  | error => cases ok
  | ok a => exact ⟨a, rfl, ok⟩

/-- A flag is no prompt. -/
lemma Prompts.addFlag {flag : Flag} (h : g.Prompts) (ok : g.addFlag verb flag = .ok g') :
    g'.Prompts := by
  obtain ⟨settled, eq, ok⟩ := bind_ok ok
  have h := h.settle eq
  split at ok
  · cases ok
  · cases ok
  · split at ok <;> cases ok
    exact h

/-- An option by its name may be the prompt. -/
lemma Prompts.addLong {name : String} {value : Option String} (h : g.Prompts)
    (ok : g.addLong verb name value = .ok g') : g'.Prompts := by
  unfold Given.addLong at ok
  split at ok
  · exact h.addFlag ok
  · obtain ⟨settled, eq, ok⟩ := bind_ok ok
    exact (h.settle eq).set ok
  · obtain ⟨settled, eq, ok⟩ := bind_ok ok
    have h := h.settle eq
    cases ok
    exact h
  · cases ok

/-- No letter is a prompt. -/
lemma Prompts.addLetters {letters : List Char} (h : g.Prompts)
    (ok : g.addLetters verb letters = .ok g') : g'.Prompts := by
  induction letters generalizing g with
  | nil =>
    cases ok
    exact h
  | cons letter letters ih =>
    obtain ⟨next, first, ok⟩ := bind_ok ok
    dsimp only at first
    split at first
    · exact ih (h.addFlag first) ok
    · cases first

/-- A file is no prompt. -/
lemma Prompts.addBare {text : String} (h : g.Prompts) (ok : g.addBare verb text = .ok g') :
    g'.Prompts := by
  obtain ⟨settled, eq, ok⟩ := bind_ok ok
  have h := h.settle eq
  split at ok <;> cases ok <;> exact h

/-- No arguments of a verb give an empty prompt. -/
lemma Prompts.read {verb : Verb} {ended : Bool} {args : List String} (h : g.Prompts)
    (ok : g.read verb ended args = .ok g') : g'.Prompts := by
  induction args generalizing g ended with
  | nil => exact h.settle ok
  | cons arg args ih =>
    unfold Given.read at ok
    split at ok
    · obtain ⟨next, first, ok⟩ := bind_ok ok
      exact ih (h.addBare first) ok
    · split at ok
      · exact ih h ok
      · obtain ⟨next, first, ok⟩ := bind_ok ok
        exact ih (h.addLong first) ok
      · obtain ⟨next, first, ok⟩ := bind_ok ok
        exact ih (h.addLetters first) ok
      · rename_i option _ _
        exact ih (g := { g with pending := some (option, some arg) }) h ok
      · obtain ⟨next, first, ok⟩ := bind_ok ok
        exact ih (h.addBare first) ok

/-- What is asked for by a verb has the prompt that was given. -/
lemma Prompts.action {e : Environment} {verb : Verb} {action : Action} (h : g.Prompts)
    (ok : g.action e verb = .ok action) (verbose : Bool) (depth : Option Nat) :
    (⟨verbose, depth, some action⟩ : Command).prompt ≠ some "" := by
  unfold Given.action at ok
  split at ok
  · obtain ⟨_, _, ok⟩ := bind_ok ok
    cases ok
    nofun
  · obtain ⟨_, _, ok⟩ := bind_ok ok
    cases ok
    nofun
  · obtain ⟨_, _, ok⟩ := bind_ok ok
    cases ok
    exact h
  · cases ok

end Given

namespace Command

variable {e : Environment} {g : Given} {args : List String} {command : Command}

/-- Without a verb no prompt is asked for. -/
lemma prompt_ofGiven (ok : ofGiven g = .ok command) : command.prompt = none := by
  unfold ofGiven at ok
  cases settled : g.settle <;> rw [settled] at ok <;> cases ok
  rfl

/-- No command line asks for an empty prompt. -/
lemma prompt_read (ok : read e g args = .ok command) : command.prompt ≠ some "" := by
  induction args generalizing g with
  | nil => simp [prompt_ofGiven ok]
  | cons arg args ih =>
    unfold Command.read at ok
    split at ok
    · cases args with
      | nil => simp [prompt_ofGiven ok]
      | cons => cases ok
    · obtain ⟨next, _, ok⟩ := Given.bind_ok ok
      exact ih ok
    · obtain ⟨next, _, ok⟩ := Given.bind_ok ok
      exact ih ok
    · exact ih ok
    · split at ok
      · cases ok
      · split at ok
        · cases ok
        · obtain ⟨inner, read, ok⟩ := Given.bind_ok ok
          obtain ⟨action, asked, ok⟩ := Given.bind_ok ok
          obtain ⟨outer, _, ok⟩ := Given.bind_ok ok
          cases ok
          have fresh : Given.Prompts .nothing := by simp [Given.Prompts, Given.nothing]
          exact (fresh.read read).action asked _ _

end Command

/-! ## Flags of the program as a whole -/

namespace Shape

/-- The short name of a flag is a letter. -/
lemma of_short : of "-v" = .letters ['v'] := rfl

/-- Its long name stands alone. -/
lemma of_verbose : of "--verbose" = .long "verbose" none := rfl

/-- The value of an option may be the next argument. -/
lemma of_separate : of "--max-call-depth" = .long "max-call-depth" none := rfl

/-- The value of an option may be joined to its name. -/
lemma of_joined (value : String) :
    of ("--max-call-depth=" ++ value) = .long "max-call-depth" (some value) := by
  simp [of, String.toList_append]

/-- A number that has no sign but plus is no option. -/
lemma of_unsigned {bits depth : Nat} {value : String}
    (read : Numeral.unsigned? bits value = some depth) : of value = .bare := by
  obtain ⟨natural, -⟩ := Option.filter_eq_some_iff.1 read
  unfold of
  split
  all_goals first
    | rfl
    | rename_i dashes
      rw [dashes] at natural
      cases natural

end Shape

namespace Given

variable {g : Given} {verb : Option Verb} {verbose verbose' : Bool} {depth depth' : Option Nat}

/-- What flags of the program as a whole have given. -/
def ofFlags (verbose : Bool) (depth : Option Nat) : Given :=
  { nothing with flags := if verbose then [.verbose] else [], maxCallDepth := depth }

/-- There is nothing to look at any more. -/
lemma settle_ofFlags (verbose : Bool) (depth : Option Nat) :
    (ofFlags verbose depth).settle = .ok (ofFlags verbose depth) := rfl

/-- There is no other flag. -/
lemma mem_ofFlags {flag : Flag} :
    flag ∈ (ofFlags verbose depth).flags ↔ flag = .verbose ∧ verbose = true := by
  cases verbose <;> simp [ofFlags]

/-- Where all that has been read can be looked at, no option waits for its value. -/
lemma pending_ne {option : ValueOption} (settled : g.settle = .ok (ofFlags verbose depth)) :
    g.pending ≠ some (option, none) := by
  intro wanting
  rw [settle, wanting] at settled
  cases settled

/-- A first limit of calls that is a number is taken. -/
lemma set_ofFlags {value : String} {n : Nat} (read : Numeral.unsigned? 64 value = some n) :
    (ofFlags verbose none).set value .maxCallDepth = .ok (ofFlags verbose (some n)) := by
  simp only [set, read]
  rfl

/-- A first wish for more of the log is taken. -/
lemma addFlag_ofFlags (settled : g.settle = .ok (ofFlags false depth)) :
    g.addFlag verb .verbose = .ok (ofFlags true depth) := by
  rw [addFlag, settled]
  rfl

/-- Where only flags of the program as a whole are given, the variable has the say on a session. -/
lemma action_ofFlags (e : Environment) : (ofFlags verbose depth).action e .repl =
    (e.flag .noHistory "MONKEY_NO_HISTORY").map fun noHistory => .repl noHistory none := by
  simp only [action, hasFlag, mem_ofFlags, reduceCtorEq, false_and, if_false]
  cases e.flag .noHistory "MONKEY_NO_HISTORY" <;> rfl

/-- A way of reading arguments on which options have the same effect as on others. -/
structure ReadsOptions {α : Type} (verb : Option Verb)
    (read : Given → List String → Except Interruption α) : Prop where
  long {g arg name value others} :
    Shape.of arg = .long name value →
    read g (arg :: others) = g.addLong verb name value >>= (read · others)
  letters {g arg cs others} :
    Shape.of arg = .letters cs →
    read g (arg :: others) = g.addLetters verb cs >>= (read · others)
  value {g arg option others} :
    Shape.of arg = .bare →
    g.pending = some (option, none) →
    read g (arg :: others) = read { g with pending := some (option, some arg) } others

/-- Options are read after a verb. -/
lemma readsOptions_verb (verb : Verb) : ReadsOptions (some verb) (Given.read verb false) where
  long shape := by
    rw [Given.read, shape]
    rfl
  letters shape := by
    rw [Given.read, shape]
    rfl
  value shape pending := by
    rw [Given.read, shape, pending]
    rfl

/-- Options are read before any verb. -/
lemma readsOptions_command (e : Environment) : ReadsOptions none (Command.read e) where
  long shape := by rw [Command.read, shape]
  letters shape := by rw [Command.read, shape]
  value shape pending := by rw [Command.read, shape, pending]

/-- Flags are taken in wherever options are read, if none of them has been given before. -/
lemma ReadsOptions.flags {α : Type} {read : Given → List String → Except Interruption α}
    (h : ReadsOptions verb read) {args : List String} (flags : GlobalFlags args verbose' depth')
    (settled : g.settle = .ok (ofFlags verbose depth)) (once : verbose = false ∨ verbose' = false)
    (once' : depth = none ∨ depth' = none) (others : List String) :
    ∃ g', g'.settle = .ok (ofFlags (verbose || verbose') (depth.or depth')) ∧
      read g (args ++ others) = read g' others := by
  -- The induction is on the flags; what has been given so far is told by the flags before.
  induction flags generalizing g verbose depth with
  | none => exact ⟨g, by simpa using settled, rfl⟩
  | @verbose word args depth' spelled _ ih =>
    obtain rfl : verbose = false := by simpa using once
    have taken :
        read g (word :: (args ++ others)) = read (ofFlags true depth) (args ++ others) := by
      obtain rfl | rfl := spelled
      · rw [h.letters Shape.of_short]
        have letter : g.addLetters verb ['v'] = g.addFlag verb .verbose >>= pure := rfl
        rw [letter, addFlag_ofFlags settled]
        rfl
      · rw [h.long Shape.of_verbose]
        have name : g.addLong verb "verbose" none = g.addFlag verb .verbose := rfl
        rw [name, addFlag_ofFlags settled]
        rfl
    obtain ⟨g', settled', same⟩ := ih (settle_ofFlags true depth) (.inr rfl) once'
    exact ⟨g', settled', taken.trans same⟩
  | @maxCallDepth value n args verbose' number _ ih =>
    obtain rfl : depth = none := by simpa using once'
    have taken : read g ("--max-call-depth" :: value :: (args ++ others)) =
        read { ofFlags verbose none with pending := some (.maxCallDepth, some value) }
          (args ++ others) := by
      rw [h.long Shape.of_separate]
      have name : g.addLong verb "max-call-depth" none =
          g.settle >>= fun g => .ok { g with pending := some (.maxCallDepth, none) } := rfl
      rw [name, settled]
      exact h.value (Shape.of_unsigned number) rfl
    obtain ⟨g', settled', same⟩ := ih
      (g := { ofFlags verbose none with pending := some (.maxCallDepth, some value) })
      (set_ofFlags number) once (.inr rfl)
    exact ⟨g', settled', taken.trans same⟩
  | @maxCallDepthIs value n args verbose' number _ ih =>
    obtain rfl : depth = none := by simpa using once'
    have taken : read g (("--max-call-depth=" ++ value) :: (args ++ others)) =
        read (ofFlags verbose (some n)) (args ++ others) := by
      rw [h.long (Shape.of_joined value)]
      have name : g.addLong verb "max-call-depth" (some value) =
          g.settle >>= fun g => g.set value .maxCallDepth := rfl
      rw [name, settled]
      exact congrArg (· >>= (read · (args ++ others))) (set_ofFlags number)
    obtain ⟨g', settled', same⟩ := ih (settle_ofFlags verbose (some n)) once (.inr rfl)
    exact ⟨g', settled', taken.trans same⟩

end Given

namespace Command

variable {e : Environment} {args before after : List String} {verbose : Bool} {depth : Option Nat}

/-- Flags alone ask for nothing in particular. -/
lemma ofArguments_flags (flags : GlobalFlags args verbose depth) :
    ofArguments e args = .ok ⟨verbose, depth, none⟩ := by
  obtain ⟨g, settled, read⟩ := (Given.readsOptions_command e).flags flags
    (Given.settle_ofFlags false none) (.inl rfl) (.inl rfl) []
  rw [List.append_nil] at read
  have given : ofArguments e args = ofGiven g := read
  rw [given, ofGiven, settled]
  cases verbose <;> rfl

/-- Where no option waits for its value, to name a session begins the arguments of it. -/
lemma read_named {g : Given} (waits : ∀ option, g.pending ≠ some (option, none)) :
    read e g ("repl" :: args) = do
      let inner ← Given.nothing.read .repl false args
      let action ← inner.action e .repl
      let outer ← g.settle
      return ⟨.verbose ∈ inner.flags ∨ .verbose ∈ outer.flags,
        inner.maxCallDepth.or outer.maxCallDepth, some action⟩ := by
  have bare : Shape.of "repl" = .bare := rfl
  rw [Command.read, bare]
  split
  · rename_i eq
    cases eq
  · rename_i eq
    cases eq
  · rename_i eq
    cases eq
  · rename_i option _ pending
    exact absurd pending (waits option)
  · rfl

/-- A session that is named has the flags on both sides, and its own one from the variable. -/
lemma ofArguments_session (flags : FlagsAround before after verbose depth) :
    ofArguments e (before ++ "repl" :: after) = do
      return ⟨verbose, depth, some (.repl (← e.flag .noHistory "MONKEY_NO_HISTORY") none)⟩ := by
  obtain @⟨v, v', d, d', first, last, once, once'⟩ := flags
  obtain ⟨outer, settled, outside⟩ := (Given.readsOptions_command e).flags first
    (Given.settle_ofFlags false none) (.inl rfl) (.inl rfl) ("repl" :: after)
  obtain ⟨inner, settled', inside⟩ := (Given.readsOptions_verb .repl).flags last
    (Given.settle_ofFlags false none) (.inl rfl) (.inl rfl) []
  rw [Bool.false_or, Option.none_or] at settled settled'
  have within : Given.nothing.read .repl false after = .ok (Given.ofFlags v' d') := by
    rw [List.append_nil] at inside
    exact inside.trans settled'
  have given : ofArguments e (before ++ "repl" :: after) = read e outer ("repl" :: after) := outside
  rw [given, read_named fun _ => Given.pending_ne settled, within, settled]
  simp only [bind, Except.bind, Given.action_ofFlags]
  cases e.flag .noHistory "MONKEY_NO_HISTORY" with
  | error => rfl
  | ok noHistory =>
    have verbose : decide (.verbose ∈ (Given.ofFlags v' d').flags ∨
        .verbose ∈ (Given.ofFlags v d).flags) = (v || v') := by
      simp [Given.mem_ofFlags, Bool.or_comm]
    have depth : d'.or d = d.or d' := by
      obtain rfl | rfl := once' <;> simp
    simp only [Except.map, verbose]
    exact congrArg (fun depth => Except.ok (⟨v || v', depth, _⟩ : Command)) depth

end Command

/-- A flag that stands for a variable is read as the variable says. -/
lemma Environment.flag_eq (e : Environment) (f : Flag) (name : String) :
    e.flag f name = (e.boolean? name).elim (.error (.misuse f.text)) .ok := by
  unfold flag boolean?
  generalize e.entries.lookup name = value
  split <;> simp_all

/-- The arguments of the program are read as is documented. -/
theorem ArgumentReader.standard_lawful : ArgumentReader.standard.Lawful where
  prompt {e args command} read := by
    cases asked : Command.ofArguments e args with
    | error => simp [standard, asked, Except.mapError] at read
    | ok =>
      simp only [standard, asked, Except.mapError, Except.ok.injEq] at read
      exact read ▸ Command.prompt_read asked
  flags given := by rw [standard, Command.ofArguments_flags given]; rfl
  session {e _ _ _ _ noHistory} given known := by
    rw [standard, Command.ofArguments_session given, e.flag_eq, known]
    rfl
  refusal {e _ _ _ _} given known := by
    refine ⟨(Interruption.misuse Flag.noHistory.text).transcript, ?_, rfl⟩
    rw [standard, Command.ofArguments_session given, e.flag_eq, known]
    rfl

end Monkey
