import Monkey.Libraries

/-!
# Carrying out commands

What the program prints, on which of its two outputs, and how it ends. A session reads the input, so
that carrying out a command comes in two parts: what can be said before the first line, and the
session itself, if there is one.
-/

namespace Monkey

namespace Transcript

/-- A run that prints reports and then fails. -/
def failure (lib : Libraries) (reports : String) (trouble : Trouble) : Transcript :=
  ⟨.failure, "", reports ++ lib.lastWords trouble⟩

/-- A run that has no file to work on. -/
def unreadable (lib : Libraries) (file : String) (error : FileError) : Transcript :=
  failure lib "" ⟨"Failed to read source file: " ++ file, [error.message]⟩

/-- A run that has no current directory. -/
def homeless (lib : Libraries) (error : FileError) : Transcript :=
  failure lib "" ⟨"Failed to determine current directory", [error.message]⟩

/-- A run that has no configuration. -/
def misconfigured (lib : Libraries) (error : ConfigError) : Transcript :=
  failure lib "" ⟨"Failed to load configuration",
    error.message :: match error with
      | .unreadable cause => [cause.message]
      | _ => []⟩

/-- The run after something has been said on the second output. -/
def after (t : Transcript) (said : String) : Transcript := { t with stderr := said ++ t.stderr }

end Transcript

namespace Diagnostic

/-- The notice of a diagnostic, for people or as JSON. -/
def notice (lib : JsonLibrary) (json : Bool) (d : Diagnostic) : String :=
  if json then
    match d.compactText lib with
    | .ok line => line
    | .error _ => d.report
  else d.report

/-- The notices of diagnostics, one after the other. -/
def listing (lib : JsonLibrary) (json : Bool) (diagnostics : List Diagnostic) : String :=
  String.join (diagnostics.map fun d => d.notice lib json ++ "\n")

end Diagnostic

/-- The notice of a runtime error in a file, for people or as JSON. -/
def RuntimeError.notice (lib : JsonLibrary) (json : Bool) (file : String) (error : RuntimeError) :
    String :=
  if json then
    lib.record [("kind", "runtime_error"), ("file", file), ("message", error.message)]
  else (Value.error error).render

namespace Command

/-- Evaluates a file and prints its value. -/
def run (lib : Libraries) (log : Event → String) (b : Bounds) (files : Files) (file : String)
    (json : Bool) : Transcript :=
  match files.read ⟨file⟩ with
  | .error error => .unreadable lib file error
  | .ok source =>
    let ran := log (.ran b source)
    match (Engine.fresh.run b source).1 with
    | .value (.error error) =>
      .failure lib (ran ++ error.notice lib.json json file ++ "\n")
        ⟨"Evaluation of " ++ file ++ " failed", []⟩
    | .value v => ⟨.success, Session.valueLine v, ran ++ log (.finished v.type)⟩
    | .rejected diagnostics =>
      .failure lib (ran ++ Diagnostic.listing lib.json json (diagnostics.map (·.inFile file)))
        ⟨"Failed to parse " ++ file ++ " (" ++ Numeral.ofNat diagnostics.length ++ " error(s))", []⟩
    | .outOfFuel => ⟨.unfinished, "", ran⟩

/-- Prints how a file is read. -/
def parse (lib : Libraries) (log : Event → String) (files : Files) (file : String) (json : Bool) :
    Transcript :=
  match files.read ⟨file⟩ with
  | .error error => .unreadable lib file error
  | .ok source =>
    let reading := Reading.ofSource source
    let parsed := log (.parsed source)
    if !reading.diagnostics.isEmpty then
      .failure lib
        (parsed ++ Diagnostic.listing lib.json json (reading.diagnostics.map (·.inFile file)))
        ⟨"Parse errors in " ++ file, []⟩
    else if json then
      match (Document.ofProgram reading.program).text lib.json with
      | .ok text => ⟨.success, text ++ "\n", parsed⟩
      | .error error => .failure lib parsed ⟨error, []⟩
    else if reading.program.statements.isEmpty then ⟨.success, "", parsed⟩
    else ⟨.success, reading.program.render ++ "\n", parsed⟩

/-- What carrying out a command comes to before any input is read. -/
inductive Outset where
  | finished (transcript : Transcript)
  /-- A session is to be held under a configuration, after something has been logged. -/
  | session (log : Event → String) (said : String) (c : Configuration)

/-- Carries out a command, up to a session. -/
def outset (lib : Libraries) (fuel : Nat) (w : World) (command : Command) : Outset :=
  let log := lib.log w.surroundings.environment command.verbose
  match w.directory with
  | .error error => .finished (.homeless lib error)
  | .ok directory =>
    match (Loader.new.loadFromDirectory w.surroundings directory).1 with
    | .error error => .finished (.misconfigured lib error)
    | .ok loaded =>
      let said := log (.loaded loaded)
      let c := loaded.under command
      match command.action with
      | some (.run file json) =>
        .finished ((run lib log ⟨c.maxCallDepth, fuel⟩ w.surroundings.files file json).after said)
      | some (.parse file json) =>
        .finished ((parse lib log w.surroundings.files file json).after said)
      | some (.repl _ _) | none => .session log said c

end Command

/-- Saves the lines of a session where they are kept, and says what goes wrong. -/
def Session.save (lib : Libraries) (w : World) (log : Event → String) (c : Configuration)
    (kept : List String) : String :=
  match c.keptIn? with
  | none => ""
  | some path =>
    match lib.save w path kept with
    | none => ""
    | some error => log (.unsaved path error)

/-- A whole session on an input. -/
def Session.transcript (lib : Libraries) (fuel : Nat) (w : World) (log : Event → String)
    (c : Configuration) (input : ByteArray) : Transcript :=
  match lib.turns w c.keptIn? c.prompt input with
  | .error error => .failure lib "" error
  | .ok turns =>
    let b : Bounds := ⟨c.maxCallDepth, fuel⟩
    let said := Session.new.converse (fun s line => log (.answered b s line)) b turns
    if said.ended then
      ⟨.success, greeting ++ said.stdout, said.stderr ++ Session.save lib w log c said.kept⟩
    else ⟨.unfinished, greeting ++ said.stdout, said.stderr⟩

/-- What carrying out a command comes to. -/
def Command.transcript (lib : Libraries) (fuel : Nat) (w : World) (command : Command)
    (input : ByteArray) : Transcript :=
  match command.outset lib fuel w with
  | .finished t => t
  | .session log said c => (Session.transcript lib fuel w log c input).after said

/-- A whole run of the program. -/
def Transcript.ofRun (lib : Libraries) (fuel : Nat) (w : World) (args : List String)
    (input : ByteArray) : Transcript :=
  match lib.arguments w.surroundings.environment args with
  | .error t => t
  | .ok command => command.transcript lib fuel w input

end Monkey
