import EnvTemplates.Path
import EnvTemplates.Text.Similarity

/-!
# Command line arguments

The command takes the path of a definitions file and these options, before it or behind it:

| option                    | meaning                                      |
|---------------------------|----------------------------------------------|
| `-p PATH`, `--path PATH`  | the root of the project                      |
| `--dry-run`               | write no outputs                             |
| `-v`, `--verbose`         | say more                                     |
| `--no-color`              | print without colours                        |
| `-V`, `--version`         | print the version                            |
| `-h`, `--help`            | print the usage                              |

Short options may be joined, and the value of a short option may be joined to it with or without an
equals sign; that of a long option may be joined to it with one. After `--` nothing is an option.
Each option may be given once.

Arguments are read from left to right. The first one at fault decides the error, and a question for
the version or the usage is answered if nothing before it is at fault.
-/

namespace EnvTemplates.CommandLine

/-- What a run of the command is asked to do. -/
structure Invocation where
  definitions : Path
  /-- The root of the project, if it is not the working directory. -/
  root? : Option Path := none
  dryRun : Bool := false
  verbose : Bool := false
  noColor : Bool := false
  deriving DecidableEq, Repr

inductive Request where
  | render (invocation : Invocation)
  | version
  | help
  deriving DecidableEq, Repr

inductive UsageError where
  | unknownOption (argument : Text)
  | repeatedOption (name : String)
  | unexpectedValue (name : String) (value : Text)
  | missingValue (name : String)
  | emptyPath (name : String)
  /-- There is a second definitions file. -/
  | extraArgument (argument : Text)
  | missingDefinitions
  deriving DecidableEq, Repr

def UsageError.message : UsageError → String
  | .unknownOption argument => "unexpected argument '" ++ String.ofList argument ++ "' found"
  | .repeatedOption name => "the argument '" ++ name ++ "' cannot be used multiple times"
  | .unexpectedValue name value =>
    "unexpected value '" ++ String.ofList value ++ "' for '" ++ name ++
      "' found; no more were expected"
  | .missingValue name => "a value is required for '" ++ name ++ "' but none was supplied"
  | .emptyPath name => "a value is required for '" ++ name ++ "' but none was supplied"
  | .extraArgument argument => "unexpected argument '" ++ String.ofList argument ++ "' found"
  | .missingDefinitions => "the following required arguments were not provided: <DEFINITIONS>"

/-- Why the reading of arguments stops. -/
inductive Stop where
  | usage (error : UsageError)
  | version
  | help
  deriving DecidableEq, Repr

/-! ### Options -/

inductive Flag where
  | path
  | dryRun
  | verbose
  | noColor
  | version
  | help
  deriving DecidableEq, Repr

namespace Flag

def all : List Flag := [path, dryRun, verbose, noColor, version, help]

def long : Flag → String
  | path => "--path"
  | dryRun => "--dry-run"
  | verbose => "--verbose"
  | noColor => "--no-color"
  | version => "--version"
  | help => "--help"

def short? : Flag → Option Char
  | path => some 'p'
  | verbose => some 'v'
  | version => some 'V'
  | help => some 'h'
  | dryRun => none
  | noColor => none

def ofLong? (spelling : Text) : Option Flag := all.find? fun f => f.long.toList = spelling

def ofShort? (letter : Char) : Option Flag := all.find? fun f => f.short? = some letter

/-- Whether a long spelling may be meant for an option. -/
def resembles (spelling : Text) (f : Flag) : Bool :=
  Text.resembles (spelling.drop 2) (f.long.toList.drop 2)

end Flag

/-- What may have been meant instead: an argument after `--`, unless an unknown long option
resembles one that there is. -/
def UsageError.tip? : UsageError → Option Text
  | .unknownOption argument =>
    if ['-', '-'].isPrefixOf argument && Flag.all.any (Flag.resembles argument) then none
    else some ("to pass '".toList ++ argument ++ "' as a value, use '-- ".toList ++ argument ++
      ['\''])
  | _ => none

/-! ### Reading -/

structure Draft where
  definitions? : Option Path := none
  root? : Option Path := none
  switches : List Flag := []
  deriving DecidableEq, Repr

namespace Draft

/-- Switch an option on. Questions are answered at once. -/
def switch (d : Draft) (f : Flag) : Except Stop Draft :=
  match f with
  | .version => .error .version
  | .help => .error .help
  | _ =>
    if f ∈ d.switches then .error (.usage (.repeatedOption f.long))
    else .ok { d with switches := f :: d.switches }

def setRoot (d : Draft) (value : Text) : Except Stop Draft :=
  if d.root?.isSome then .error (.usage (.repeatedOption Flag.path.long))
  else if value = [] then .error (.usage (.emptyPath Flag.path.long))
  else .ok { d with root? := some (.ofText value) }

/-- Take an argument that is no option. -/
def setDefinitions (d : Draft) (argument : Text) : Except Stop Draft :=
  if d.definitions?.isSome then .error (.usage (.extraArgument argument))
  else if argument = [] then .error (.usage (.emptyPath "<DEFINITIONS>"))
  else .ok { d with definitions? := some (.ofText argument) }

def finish (d : Draft) : Except Stop Invocation :=
  match d.definitions? with
  | none => .error (.usage .missingDefinitions)
  | some definitions => .ok
    { definitions
      root? := d.root?
      dryRun := d.switches.contains .dryRun
      verbose := d.switches.contains .verbose
      noColor := d.switches.contains .noColor }

end Draft

inductive Shape where
  | terminator
  /-- A long option, with the value joined to it. -/
  | long (spelling : Text) (value : Option Text)
  | short (letters : Text)
  | plain
  deriving DecidableEq, Repr

/-- The form of an argument. A hyphen alone is no option. -/
def Shape.of : Text → Shape
  | ['-', '-'] => .terminator
  | '-' :: '-' :: rest =>
    let (spelling, value) := rest.span (· ≠ '=')
    .long ('-' :: '-' :: spelling) (value.tail?)
  | '-' :: c :: rest => .short (c :: rest)
  | _ => .plain

/-- Read a long option. The outcome says whether its value is still to come. -/
def readLong (d : Draft) (spelling : Text) (value : Option Text) : Except Stop (Draft × Bool) :=
  match Flag.ofLong? spelling, value with
  | none, _ => .error (.usage (.unknownOption spelling))
  | some .path, none => .ok (d, true)
  | some .path, some value => return (← d.setRoot value, false)
  | some f, some value => .error (.usage (.unexpectedValue f.long value))
  | some f, none => return (← d.switch f, false)

/-- Read joined short options. The outcome says whether the value of the last one is still to
come. -/
def readShort (d : Draft) : Text → Except Stop (Draft × Bool)
  | [] => .ok (d, false)
  | c :: rest =>
    match Flag.ofShort? c with
    | none => .error (.usage (.unknownOption ['-', c]))
    | some .path =>
      match rest with
      | [] => .ok (d, true)
      | '=' :: value => return (← d.setRoot value, false)
      | value => return (← d.setRoot value, false)
    | some f => do readShort (← d.switch f) rest

/-- Read arguments none of which is an option. -/
def readPlain (d : Draft) : List Text → Except Stop Invocation
  | [] => d.finish
  | a :: rest => do readPlain (← d.setDefinitions a) rest

/-- Read arguments. `pending` says that the next one has to be the root of the project. -/
def read (d : Draft) (pending : Bool) : List Text → Except Stop Invocation
  | [] => if pending then .error (.usage (.missingValue Flag.path.long)) else d.finish
  | a :: rest =>
    match Shape.of a, pending with
    | .plain, true => do read (← d.setRoot a) false rest
    | .plain, false => do read (← d.setDefinitions a) false rest
    | _, true => .error (.usage (.missingValue Flag.path.long))
    | .terminator, false => readPlain d rest
    | .long spelling value, false => do
      let (d, pending) ← readLong d spelling value
      read d pending rest
    | .short letters, false => do
      let (d, pending) ← readShort d letters
      read d pending rest

def Request.ofArguments (arguments : List Text) : Except UsageError Request :=
  match read {} false arguments with
  | .ok invocation => .ok (.render invocation)
  | .error .version => .ok .version
  | .error .help => .ok .help
  | .error (.usage e) => .error e

end EnvTemplates.CommandLine
