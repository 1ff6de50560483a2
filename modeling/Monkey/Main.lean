import Monkey.Standard
import Monkey.Standard.Home
import Monkey.Standard.Settings

/-!
# The program

Reads what a run of the program can depend on, and prints what comes of it.
-/

namespace Monkey.Main

/-- More nested calls than a machine has memory for. -/
def fuel : Nat := Nat.pow 2 62

/-- The variables that the program looks at. -/
def variableNames : List String :=
  ["HOME", "MONKEY_JSON", "MONKEY_MAX_CALL_DEPTH", "MONKEY_NO_HISTORY", "MONKEY_PROMPT"]

/-- The files that the program may look at. -/
def wanted (e : Environment) (directory : Path) (args : List String) : List Path :=
  directory.ancestors.map Surroundings.projectFile ++ e.globalFile?.toList
    ++ match Libraries.standard.arguments e args with
      | .ok ⟨_, _, some (.run file _)⟩ | .ok ⟨_, _, some (.parse file _)⟩ => [⟨file⟩]
      | _ => []

/-- The number of a system error, which may be reported with a minus sign. -/
def errorNumber (code : UInt32) : UInt32 := min code (-code)

/-- What stands under a path that cannot be read, for a reason that has no name. -/
def lookAgain (p : Path) (error : FileError) : IO (Except FileError FileNode) := do
  try
    discard (IO.FS.realPath p.text)
    return .ok (.unreadable error)
  catch _ => return .error error

/-- What stands under a path. -/
def look (p : Path) : IO (Except FileError FileNode) := do
  try
    return .ok (.file (← IO.FS.readBinFile p.text))
  catch
    | .noFileOrDirectory .. => return .error .notFound
    | .inappropriateType _ code _ =>
      return if errorNumber code == 20 then .error .notADirectory else .ok .directory
    | .invalidArgument file code details =>
      if errorNumber code == 36 then return .error .nameTooLong
      else lookAgain p (.other (IO.Error.invalidArgument file code details).toString)
    | e => lookAgain p (.other e.toString)

/-- The current directory. -/
def directory : IO (Except FileError Path) := do
  try
    return .ok ⟨(← IO.currentDir).toString⟩
  catch e => return .error (.other e.toString)

/-- What is left of an input. -/
partial def readAll (input : IO.FS.Stream) (read : ByteArray) : IO ByteArray := do
  let next ← input.read 4096
  if next.isEmpty then return read
  readAll input (read ++ next)

/-- Holds a session with a person, who is shown the prompt. -/
partial def converse (b : Bounds) (prompt : String) (s : Session) : IO Status := do
  IO.print prompt
  (← IO.getStdout).flush
  let raw ← (← IO.getStdin).getLine
  let turn := (Editor.turns raw.toUTF8).headD ⟨"", .over⟩
  let ⟨stdout, stderr, _, next⟩ := s.reply (fun _ _ => "") b turn
  IO.print stdout
  IO.eprint stderr
  match next with
  | .goOn s => converse b prompt s
  | .ended => return .success
  | .unfinished => return .unfinished

/-- The exit code for a status. -/
def exitCode (s : Status) : UInt32 := ((s.code?).getD 1).toUInt32

/-- Prints what comes of a run. -/
def print (t : Transcript) : IO UInt32 := do
  IO.print t.stdout
  IO.eprint t.stderr
  return exitCode t.status

/-- Runs the program. -/
def run (args : List String) : IO UInt32 := do
  let entries ← variableNames.filterMapM fun name => do
    return (← IO.getEnv name).map fun value => (name, some value)
  let environment := Environment.ofVariables entries none
  let directory ← directory
  let start := directory.toOption.getD ⟨""⟩
  let found ← (wanted environment start args).mapM fun p => return (p, ← look p)
  let files : Files := ⟨fun p => (found.lookup p).getD (.error .notFound)⟩
  let w : World := ⟨⟨files, environment, Settings.ofToml⟩, directory⟩
  match Libraries.standard.arguments environment args with
  | .error t => print t
  | .ok command =>
    match command.outset .standard fuel w with
    | .finished t => print t
    | .session log _ c =>
      let input ← IO.getStdin
      if ← input.isTty then
        IO.print Session.greeting
        return exitCode (← converse ⟨c.maxCallDepth, fuel⟩ c.prompt .new)
      else print (Session.transcript .standard fuel w log c (← readAll input .empty))

end Monkey.Main

/-- The program. -/
def main (args : List String) : IO UInt32 := Monkey.Main.run args
