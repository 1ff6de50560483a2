import Monkey.Libraries

/-!
# Command lines

Reads the arguments of the program. They are read from left to right; the first one that names a
verb begins the arguments of that verb, and some flags may stand before it as well as after it. An
option takes its value from after an equals sign or from the next argument, and that value is looked
at only when reading has gone on to something else. After a double dash there are no more options.
-/

namespace Monkey

/-- What can be asked for by name. -/
inductive Verb where
  | run
  | parse
  | repl
deriving DecidableEq, Repr

/-- The verb with a name. Each has a short one too. -/
def Verb.ofName? : String → Option Verb
  | "run" | "r" => some .run
  | "parse" | "p" => some .parse
  | "repl" | "i" => some .repl
  | _ => none

/-- The name of a verb. -/
def Verb.name : Verb → String
  | .run => "run"
  | .parse => "parse"
  | .repl => "repl"

/-- An argument that stands for itself. -/
inductive Flag where
  | verbose
  | json
  | noHistory
  | help
  | version
deriving DecidableEq, Repr

/-- How a flag is written. -/
def Flag.text : Flag → String
  | .verbose => "--verbose"
  | .json => "--json"
  | .noHistory => "--no-history"
  | .help => "--help"
  | .version => "--version"

/-- An argument that takes a value. -/
inductive ValueOption where
  | maxCallDepth
  | prompt
deriving DecidableEq, Repr

/-- How an option is written, without its value. -/
def ValueOption.text : ValueOption → String
  | .maxCallDepth => "--max-call-depth"
  | .prompt => "--prompt"

/-- What a name after two dashes can stand for. -/
inductive LongName where
  | flag (flag : Flag)
  | option (option : ValueOption)
deriving DecidableEq, Repr

/-- The meaning of a name after two dashes, among the arguments of a verb or before any. -/
def LongName.of? (verb : Option Verb) (name : String) : Option LongName :=
  match name, verb with
  | "verbose", _ => some (.flag .verbose)
  | "help", _ => some (.flag .help)
  | "version", _ => some (.flag .version)
  | "max-call-depth", _ => some (.option .maxCallDepth)
  | "json", some .run | "json", some .parse => some (.flag .json)
  | "no-history", some .repl => some (.flag .noHistory)
  | "prompt", some .repl => some (.option .prompt)
  | _, _ => none

/-- The meaning of a letter after one dash. -/
def Flag.ofLetter? : Char → Option Flag
  | 'v' => some .verbose
  | 'h' => some .help
  | 'V' => some .version
  | _ => none

/-- Why reading the arguments ends before there is a command. -/
inductive Interruption where
  | help (verb : Option Verb)
  | version (verb : Option Verb)
  /-- The arguments make no sense, because of one that is at fault or missing. -/
  | misuse (about : String)
deriving DecidableEq, Repr

/-- What has been given so far among the arguments of a verb, or before any. -/
structure Given where
  flags : List Flag
  maxCallDepth : Option Nat
  prompt : Option String
  file : Option String
  /-- The option read last, with its value if that has been read too. -/
  pending : Option (ValueOption × Option String)
deriving DecidableEq, Repr

namespace Given

/-- Nothing has been given. -/
def nothing : Given := ⟨[], none, none, none, none⟩

/-- Looks at the value of an option. None can be given twice. -/
def set (g : Given) (value : String) : ValueOption → Except Interruption Given
  | .maxCallDepth =>
    match g.maxCallDepth, Numeral.unsigned? 64 value with
    | none, some depth => .ok { g with maxCallDepth := some depth }
    | _, _ => .error (.misuse ValueOption.maxCallDepth.text)
  | .prompt =>
    if g.prompt.isSome || value.isEmpty then .error (.misuse ValueOption.prompt.text)
    else .ok { g with prompt := some value }

/-- Looks at the value of the option read last. -/
def settle (g : Given) : Except Interruption Given :=
  match g.pending with
  | none => .ok g
  | some (option, none) => .error (.misuse option.text)
  | some (option, some value) => { g with pending := none }.set value option

/-- Takes in a flag. None can be given twice. -/
def addFlag (verb : Option Verb) (g : Given) (flag : Flag) : Except Interruption Given := do
  let g ← g.settle
  match flag with
  | .help => .error (.help verb)
  | .version => .error (.version verb)
  | flag =>
    if flag ∈ g.flags then .error (.misuse flag.text)
    else .ok { g with flags := flag :: g.flags }

/-- Takes in an argument with two dashes: its name, and what follows an equals sign. -/
def addLong (verb : Option Verb) (g : Given) (name : String) (value : Option String) :
    Except Interruption Given :=
  match LongName.of? verb name, value with
  | some (.flag flag), none => g.addFlag verb flag
  | some (.option option), some value => do (← g.settle).set value option
  | some (.option option), none => do
    let g ← g.settle
    .ok { g with pending := some (option, none) }
  | _, _ => .error (.misuse ("--" ++ name))

/-- Takes in the letters after one dash. -/
def addLetters (verb : Option Verb) (g : Given) (letters : List Char) : Except Interruption Given :=
  letters.foldlM (fun g letter =>
    match Flag.ofLetter? letter with
    | some flag => g.addFlag verb flag
    | none => .error (.misuse ("-" ++ letter.toString))) g

/-- Takes in an argument that is no option. Two verbs have a file, and only one. -/
def addBare (verb : Option Verb) (g : Given) (text : String) : Except Interruption Given := do
  let g ← g.settle
  match verb, g.file with
  | some .run, none | some .parse, none => .ok { g with file := some text }
  | _, _ => .error (.misuse text)

end Given

/-- What an argument looks like. -/
inductive Shape where
  /-- Two dashes and nothing else. -/
  | ending
  | long (name : String) (value : Option String)
  | letters (letters : List Char)
  | bare

/-- The shape of an argument. A lone dash is no option. -/
def Shape.of (arg : String) : Shape :=
  match arg.toList with
  | ['-', '-'] => .ending
  | '-' :: '-' :: cs =>
    let name := cs.takeWhile (· != '=')
    .long (String.ofList name)
      (if name.length < cs.length then some (String.ofList (cs.drop (name.length + 1))) else none)
  | '-' :: c :: cs => .letters (c :: cs)
  | _ => .bare

/-- Reads the arguments of a verb. `ended` tells whether there are no more options. -/
def Given.read (verb : Verb) (ended : Bool) (g : Given) : List String → Except Interruption Given
  | [] => g.settle
  | arg :: args =>
    if ended then do (← g.addBare verb arg).read verb true args
    else
      match Shape.of arg, g.pending with
      | .ending, _ => g.read verb true args
      | .long name value, _ => do (← g.addLong verb name value).read verb false args
      | .letters cs, _ => do (← g.addLetters verb cs).read verb false args
      | .bare, some (option, none) =>
        { g with pending := some (option, some arg) }.read verb false args
      | .bare, _ => do (← g.addBare verb arg).read verb false args

/-- Whether the variable that stands in for a flag gives it. -/
def Environment.flag (e : Environment) (flag : Flag) (name : String) : Except Interruption Bool :=
  match e.entries.lookup name with
  | none | some (some "false") => .ok false
  | some (some "true") => .ok true
  | some _ => .error (.misuse flag.text)

namespace Given

/-- Whether a flag is given, if not by an argument then by a variable. -/
def hasFlag (e : Environment) (g : Given) (flag : Flag) (name : String) :
    Except Interruption Bool :=
  if flag ∈ g.flags then .ok true else e.flag flag name

/-- What the arguments of a verb ask for. -/
def action (e : Environment) (g : Given) (verb : Verb) : Except Interruption Action :=
  match verb, g.file with
  | .run, some file => return .run file (← g.hasFlag e .json "MONKEY_JSON")
  | .parse, some file => return .parse file (← g.hasFlag e .json "MONKEY_JSON")
  | .repl, _ => return .repl (← g.hasFlag e .noHistory "MONKEY_NO_HISTORY") g.prompt
  | _, none => .error (.misuse "<FILE>")

end Given

namespace Command

/-- The verb that help is asked for. -/
def helpFor : List String → Interruption
  | [] | ["help"] => .help none
  | [name] =>
    match Verb.ofName? name with
    | some verb => .help verb
    | none => .misuse name
  | _ :: other :: _ => .misuse other

/-- The command that arguments without a verb ask for. -/
def ofGiven (g : Given) : Except Interruption Command :=
  g.settle.map fun g => ⟨.verbose ∈ g.flags, g.maxCallDepth, none⟩

/-- The command that the rest of the arguments ask for, after those that stand before any verb. -/
def read (e : Environment) (g : Given) : List String → Except Interruption Command
  | [] => ofGiven g
  | arg :: args =>
    match Shape.of arg, g.pending with
    | .ending, _ => args.head?.elim (ofGiven g) fun other => .error (.misuse other)
    | .long name value, _ => do read e (← g.addLong none name value) args
    | .letters cs, _ => do read e (← g.addLetters none cs) args
    | .bare, some (option, none) => read e { g with pending := some (option, some arg) } args
    | .bare, _ =>
      if arg = "help" then .error (helpFor args)
      else
        match Verb.ofName? arg with
        | none => .error (.misuse arg)
        | some verb => do
          let inner ← Given.nothing.read verb false args
          let action ← inner.action e verb
          let outer ← g.settle
          return ⟨.verbose ∈ inner.flags ∨ .verbose ∈ outer.flags,
            inner.maxCallDepth.or outer.maxCallDepth, some action⟩

/-- The command that the arguments of the program ask for. -/
def ofArguments (e : Environment) (args : List String) : Except Interruption Command :=
  read e .nothing args

end Command

end Monkey
