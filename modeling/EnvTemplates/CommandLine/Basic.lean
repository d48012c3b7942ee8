import EnvTemplates.CommandLine.Arguments
import EnvTemplates.Config

/-!
# The command line

What a run of the command prints, what it leaves in the file tree, and how it exits. A run goes
through these steps, and the first that fails ends it:

    configuration ──▶ definitions ──▶ rendering ──▶ writing

What was printed before a failure stays printed. A dry run is a run that lists the outputs in place
of writing them. Warnings never change the exit status.
-/

namespace EnvTemplates.CommandLine

/-! ### Colours -/

inductive Style where
  | bold
  | dimmed
  | italic
  | green
  | yellow
  deriving DecidableEq, Repr

namespace Style

/-- The numbers of the terminal codes that switch a style on and off. -/
def codes : Style → String × String
  | bold => ("1", "0")
  | dimmed => ("2", "0")
  | italic => ("3", "0")
  | green => ("32", "39")
  | yellow => ("33", "39")

def escape (code : String) : String := "\x1b[" ++ code ++ "m"

/-- Set text off, if there are colours. -/
def apply (style : Style) (coloured : Bool) (text : String) : Text :=
  let (on, off) := style.codes
  (if coloured then escape on ++ text ++ escape off else text).toList

end Style

/-! ### What is printed -/

def line (parts : List Text) : Text := parts.flatten ++ ['\n']

/-- The line that says which definitions are used. -/
def announcement (d : Definitions) : Text :=
  line ["Loaded ".toList, .ofNat d.vars.size, " variable(s) for environment `".toList,
    d.environment, "` from ".toList, d.path.display]

/-- The name of an output, or nothing if its path has none. -/
def outputFileName (r : Rendered) : Text :=
  match r.output.fileName? with
  | some name => Utf8.decodeLossy name
  | none => []

/-- The block that shows a rendered template. -/
def block (coloured : Bool) (root : Path) (r : Rendered) : Text :=
  line [Style.bold.apply coloured "Template:", [' '], (r.template.relativeTo root).display] ++
    line [Style.bold.apply coloured "Output:", [' '], outputFileName r] ++
    line [r.content] ++ line []

def nothingFound : Text := line ["No template files found.".toList]

/-- The lines of a dry run: the outputs that would be written. -/
def listing (root : Path) (environment : Text) (rendered : List Rendered) : Text :=
  line ["Dry run: would write ".toList, .ofNat rendered.length,
      " file(s) for environment `".toList, environment, "`:".toList] ++
    rendered.flatMap fun r => line ["  ".toList, (r.output.relativeTo root).display]

/-- The line that says how many outputs were written. -/
def written (coloured : Bool) (environment : Text) (rendered : List Rendered) : Text :=
  line [Style.green.apply coloured "Wrote", [' '], .ofNat rendered.length,
    " file(s) for environment `".toList, environment, "`.".toList]

def warningLine (coloured : Bool) (root : Path) (w : Warning) : Text :=
  line [Style.yellow.apply coloured "warning:", [' '], (w.messageIn root).toList]

/-! ### Log lines and errors -/

def logField (coloured : Bool) (name : String) (value : Text) : Text :=
  [' '] ++ Style.italic.apply coloured name ++ Style.dimmed.apply coloured "=" ++ value

def logLine (coloured : Bool) (e : Event) : Text :=
  line [e.level.name.toList, [' '], e.message.toList,
    e.details.flatMap fun (name, value) => logField coloured name value]

/-- A text whose second and further lines are set in. -/
def setIn (t : Text) : Text := "\n    ".toList.intercalate t.lines

/-- The lines of an error: what failed, under which code, and what can be done about it. -/
def errorLines (e : Error) : Text :=
  line ["error: ".toList, setIn e.message.toList, " (".toList, e.code.toList, ")".toList] ++
    match e.help? with
    | some help => line ["help: ".toList, help.toList]
    | none => []

def usageLines (e : UsageError) : Text :=
  line ["error: ".toList, e.message.toList] ++
    match e.tip? with
    | some tip => line ["  tip: ".toList, tip]
    | none => []

/-! ### Outcomes -/

/-- How a run of the command ended. -/
structure Outcome where
  status : Nat := 0
  output : Text := []
  warnings : Text := []
  /-- What the run failed with, if it failed after the arguments were understood. -/
  failure? : Option Error := none
  usage? : Option UsageError := none
  events : List Event := []
  coloured : Bool := false
  tree : FileTree

namespace Outcome

/-- Everything that is printed besides the output: what was logged comes before the warnings. -/
def diagnostics (o : Outcome) : Text :=
  o.events.flatMap (logLine o.coloured) ++ o.warnings ++
    (o.failure?.map errorLines).getD [] ++ (o.usage?.map usageLines).getD []

/-- The lines besides the output that start as a warning does. A carriage return in front of the end
of a line belongs to it. -/
def warningLines (o : Outcome) : List Text :=
  let starts := ["warning:".toList, "\x1b[33mwarning:".toList]
  (o.diagnostics.lines.map fun l => (dropEnd? ['\r'] l).getD l).filter fun l =>
    starts.any fun start => start.isPrefixOf l

end Outcome

/-! ### Runs -/

/-- The least important events that an invocation logs. -/
def Invocation.logLevel (i : Invocation) : Level := if i.verbose then .debug else .warn

def failureStatus : Nat := 2

/-- The root of the project: the one that was asked for, or the working directory. -/
def Invocation.root (i : Invocation) (t : FileTree) : Path :=
  i.root?.getD (FileTree.pathOf t.workingDirectory)

/-- What rendering starts from: the configuration and the definitions. -/
def inputs (t : FileTree) (i : Invocation) : Run (Options × Definitions) := do
  let config ← Config.load t (i.root t)
  let definitions ← Definitions.load t i.definitions config.definitionsSuffix
  return (config.options, definitions)

/-- End a run after its templates were rendered: list the outputs or write them. `shown` is what
has been printed before. -/
def conclude (t : FileTree) (i : Invocation) (coloured : Bool) (environment shown : Text)
    (report : Report) : Outcome :=
  let root := i.root t
  let warnings := report.warnings.flatMap (warningLine coloured root)
  if report.rendered = [] then { output := shown ++ nothingFound, warnings, tree := t }
  else if i.dryRun then
    { output := shown ++ listing root environment report.rendered, warnings, tree := t }
  else
    let (tree, run) := writeAll t report.rendered
    match run.result with
    | .error e =>
      { status := failureStatus, output := shown, failure? := some e, events := run.events, tree }
    | .ok _ =>
      { output := shown ++ written coloured environment report.rendered, warnings
        events := run.events, tree }

/-- A run that failed before it wrote anything. -/
def failed (t : FileTree) (shown : Text) (events : List Event) (e : Error) : Outcome :=
  { status := failureStatus, output := shown, failure? := some e, events, tree := t }

/-- Run the command as invoked. `colourful` says whether the surroundings allow colours. -/
def Invocation.run (i : Invocation) (t : FileTree) (colourful : Bool) : Outcome :=
  let coloured := colourful && !i.noColor
  let first := inputs t i
  match first.result with
  | .error e => failed t [] first.events e
  | .ok (options, definitions) =>
    let shown := if i.verbose then announcement definitions else []
    let second := render t (i.root t) definitions options
    match second.result with
    | .error e => failed t shown (first.events ++ second.events) e
    | .ok report =>
      let blocks := report.rendered.flatMap (block coloured (i.root t))
      let last := conclude t i coloured definitions.environment (shown ++ blocks) report
      { last with events := first.events ++ second.events ++ last.events }

/-- Run the command as invoked, and keep the events that it logs. -/
def Invocation.runLogged (i : Invocation) (t : FileTree) (colourful : Bool) : Outcome :=
  let o := i.run t colourful
  { o with
    events := o.events.filter fun e => i.logLevel.admits e.level
    coloured := colourful && !i.noColor }

/-! ### The command -/

def versionLine : Text := line ["envt_cli 0.1.0".toList]

def usage : Text :=
  line ["Usage: envt [OPTIONS] <DEFINITIONS>".toList] ++ line [] ++
    line ["Options:".toList] ++
    line ["  -p, --path <PATH>  the root of the project".toList] ++
    line ["      --dry-run      write no outputs".toList] ++
    line ["  -v, --verbose      say more".toList] ++
    line ["      --no-color     print without colours".toList] ++
    line ["  -h, --help         print the usage".toList] ++
    line ["  -V, --version      print the version".toList]

/-- Run the command with arguments. -/
def run (t : FileTree) (arguments : List Text) (colourful : Bool) : Outcome :=
  match Request.ofArguments arguments with
  | .error e => { status := failureStatus, usage? := some e, tree := t }
  | .ok .version => { output := versionLine, tree := t }
  | .ok .help => { output := usage, tree := t }
  | .ok (.render i) => i.runLogged t colourful

end EnvTemplates.CommandLine
