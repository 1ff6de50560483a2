import Monkey.Libraries
import Monkey.Proofs.Json.Laws

/-!
# The laws of the libraries

What is documented of the libraries that the program uses, as far as results about whole runs depend
on it. Some flags belong to the program as a whole and may stand before a verb as well as after it.
The flags of a verb may also be given by variables; these are looked at only where the verb is
named, and must then be `true` or `false`. A log tells of warnings only, unless it is asked for
more.
-/

namespace Monkey

/-- What a variable says of the flag that it stands in for. One that is not set says no, and one
that holds no truth value says nothing. -/
def Environment.boolean? (e : Environment) (name : String) : Option Bool :=
  match e.entries.lookup name with
  | none | some (some "false") => some false
  | some (some "true") => some true
  | _ => none

/-- Arguments that are flags of the program as a whole, each of them given once at most, and what
they say. -/
inductive GlobalFlags : List String → Bool → Option Nat → Prop where
  | none :
    GlobalFlags [] false none
  | verbose {word args depth} :
    word = "-v" ∨ word = "--verbose" →
    GlobalFlags args false depth →
    GlobalFlags (word :: args) true depth
  | maxCallDepth {value depth args verbose} :
    Numeral.unsigned? 64 value = some depth →
    GlobalFlags args verbose none →
    GlobalFlags ("--max-call-depth" :: value :: args) verbose (some depth)
  | maxCallDepthIs {value depth args verbose} :
    Numeral.unsigned? 64 value = some depth →
    GlobalFlags args verbose none →
    GlobalFlags (("--max-call-depth=" ++ value) :: args) verbose (some depth)

/-- Flags of the program as a whole on both sides of a verb, each of them given once at most. -/
inductive FlagsAround (before after : List String) : Bool → Option Nat → Prop where
  | intro {verbose verbose' depth depth'} :
    GlobalFlags before verbose depth →
    GlobalFlags after verbose' depth' →
    verbose = false ∨ verbose' = false →
    depth = none ∨ depth' = none →
    FlagsAround before after (verbose || verbose') (depth.or depth')

/-- Flags on both sides of a verb are flags without it. -/
lemma FlagsAround.all {before after : List String} {verbose : Bool} {depth : Option Nat}
    (h : FlagsAround before after verbose depth) : GlobalFlags (before ++ after) verbose depth := by
  obtain @⟨_, verbose', _, depth', first, last, once, once'⟩ := h
  induction first with
  | none => simpa using last
  | verbose word _ ih =>
    obtain rfl : verbose' = false := by simpa using once
    exact .verbose word (ih (.inl rfl) once')
  | maxCallDepth value _ ih =>
    obtain rfl : depth' = none := by simpa using once'
    exact .maxCallDepth value (ih once (.inl rfl))
  | maxCallDepthIs value _ ih =>
    obtain rfl : depth' = none := by simpa using once'
    exact .maxCallDepthIs value (ih once (.inl rfl))

/-- The documented behaviour of a library for arguments. -/
structure ArgumentReader.Lawful (read : ArgumentReader) : Prop where
  /-- A prompt that is asked for is not empty. -/
  prompt : ∀ {e args command}, read e args = .ok command → command.prompt ≠ some ""
  /-- Flags alone ask for nothing in particular. -/
  flags : ∀ {e args verbose depth}, GlobalFlags args verbose depth →
    read e args = .ok ⟨verbose, depth, none⟩
  /-- A session can be asked for by name, with the variable for it as a flag. -/
  session : ∀ {e before after verbose depth noHistory},
    FlagsAround before after verbose depth →
    e.boolean? "MONKEY_NO_HISTORY" = some noHistory →
    read e (before ++ "repl" :: after) = .ok ⟨verbose, depth, some (.repl noHistory none)⟩
  /-- Where the variable says nothing, to name a session is misuse. -/
  refusal : ∀ {e before after verbose depth},
    FlagsAround before after verbose depth →
    e.boolean? "MONKEY_NO_HISTORY" = none →
    ∃ t, read e (before ++ "repl" :: after) = .error t ∧ t.status = .misuse

/-- The documented behaviour of the libraries. -/
structure Libraries.Lawful (lib : Libraries) : Prop where
  json : lib.json.Lawful
  arguments : lib.arguments.Lawful
  /-- Unless it is asked for more, the log tells of warnings only. -/
  log : ∀ {e event}, e.entries.lookup "MONKEY_LOG" = none → event.isWarning = false →
    lib.log e false event = ""

end Monkey
