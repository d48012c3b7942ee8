import EnvTemplates.Definitions
import EnvTemplates.Exclude
import EnvTemplates.Naming
import EnvTemplates.Report

/-!
# Projects

A project is a directory with templates in it, at any depth. This module finds them, renders them
and writes what was rendered:

    root ──collect──▶ templates ──render──▶ Report ──writeAll──▶ file tree

Templates are found depth first, in the order of the names in each directory, links followed. A
directory that is entered again while the walk is still inside of it can only be reached through a
cycle of links, which is an error; entering it again later is none. Directories are told apart by
their canonical paths, or by the paths that they are reached by where they have none. Rendering
writes nothing, so a run that fails before its first write leaves the tree as it was.
-/

namespace EnvTemplates

/-- The suffix of templates, unless another one is configured. -/
def defaultTemplateSuffix : Text := ['.', 'e', 'n', 'v', 't']

/-- How templates are found. -/
structure Options where
  templateSuffix : Text := defaultTemplateSuffix
  exclude : List Text := []
  deriving DecidableEq, Repr

/-- Whether a path is that of a template: its last name is UTF-8 and ends with the suffix. -/
def isTemplate (path : Path) (suffix : Text) : Bool :=
  match path.fileNameText? with
  | some name => (dropEnd? suffix name).isSome
  | none => false

/-! ### Finding templates -/

namespace Walk

/-- What a walk is looking at: the tree, the suffix of templates, and which paths are passed over,
given whether they lead to directories. -/
structure Setting where
  tree : FileTree
  suffix : Text
  excluded : Path → Bool → Bool

/-- What a directory is told by: the components of its canonical path, or those of the path that it
is reached by if it has none. -/
abbrev Identity := List Component

def identity (t : FileTree) (path : Path) : Identity :=
  match t.canonicalize path with
  | .ok canonical => canonical.components
  | .error _ => path.components

/-- Where a walk stands: the directories that it is inside of, the innermost first, and the
templates found. -/
structure State where
  ancestors : List Identity := []
  found : List Path := []
  deriving DecidableEq

def State.enter (state : State) (directory : Identity) : State :=
  { state with ancestors := directory :: state.ancestors }

def State.leave (state : State) (directory : Identity) : State :=
  { state with ancestors := state.ancestors.erase directory }

/-- Look at an entry of a directory. `visit` walks through an entry that is a directory. -/
def entry (s : Setting) (visit : State → Path → Run State) (state : State) (path : Path) :
    Run State := do
  let isDirectory := s.tree.isDirectory path
  if s.excluded path isDirectory then
    Run.log (.excluded path)
    return state
  else if isDirectory then visit state path
  else if s.tree.isFile path && isTemplate path s.suffix then
    Run.log (.templateFound path)
    return { state with found := state.found ++ [path] }
  else return state

/-- The paths of the entries of a directory, in the order of their names, if it can be listed. -/
def entries (s : Setting) (path : Path) (directory : Location) : Run (List Path) := do
  let names ← .ofExcept ((s.tree.list directory).mapError .io)
  return names.map fun name => path.join ⟨name⟩

/-- Walk through a directory, with `visit` for the directories in it. What is not a directory is
passed over. -/
def step (s : Setting) (visit : State → Path → Run State) (state : State) (path : Path) :
    Run State :=
  match s.tree.directoryAt? path with
  | none => pure state
  | some directory =>
    if identity s.tree path ∈ state.ancestors then Run.fail (.symlinkCycle path)
    else do
      let paths ← entries s path directory
      let after ← paths.foldlM (entry s visit) (state.enter (identity s.tree path))
      return after.leave (identity s.tree path)

/-- Walk through a directory and those below it. `depth` bounds the number of directories inside of
each other: it is more than a path can have names, so it never runs out. -/
def visit (s : Setting) : (depth : Nat) → State → Path → Run State
  | 0, _, path => Run.fail (.symlinkCycle path)
  | depth + 1, state, path => step s (visit s depth) state path

/-- The templates below a path. -/
def templates (s : Setting) (root : Path) : Run (List Path) := do
  return (← visit s (FileTree.maxPath + 1) {} root).found

end Walk

/-- Which paths the rules exclude, relative to a root. -/
def excludedBy (rules : List ExcludeRule) (root path : Path) (isDirectory : Bool) : Bool :=
  ExcludeRule.excludes rules (ruleSpelling root path) isDirectory

/-- Find the templates of a project. The exclude rules are read before the tree is looked at. -/
def collect (t : FileTree) (root : Path) (options : Options) : Run (List Path) := do
  let rules ← .ofExcept ((ExcludeRule.parseAll options.exclude).mapError .configParse)
  Walk.templates ⟨t, options.templateSuffix, excludedBy rules root⟩ root

/-! ### Rendering -/

/-- The path that a template is rendered to: next to it, under the name of its output. -/
def outputPath (template : Path) (name : Text) : Path :=
  (template.parent?.getD ⟨Path.dot⟩).join (.ofText name)

/-- Name, read and substitute a template, and add it to the context. -/
def process (t : FileTree) (definitions : Definitions) (options : Options) (context : RunContext)
    (template : Path) : Run RunContext := do
  let name := outputName (template.fileNameText?.getD []) definitions.environment
    options.templateSuffix
  Run.log (.outputNamed template name)
  let text ← .ofExcept ((t.readText template).mapError (.templateRead template))
  let (s, events) := Substitution.run text definitions.vars
  Run.logAll events
  Run.log (.templateSubstituted template s.total)
  return (context.record template s).pushRendered
    ⟨template, outputPath template name, s.text, s.total⟩

/-- Render every template of a project. The first one that cannot be read makes the run fail. -/
def render (t : FileTree) (root : Path) (definitions : Definitions) (options : Options) :
    Run Report := do
  let templates ← collect t root options
  let context ← templates.foldlM (process t definitions options) (.start definitions.vars)
  return context.finish

/-! ### Writing -/

/-- Write rendered templates, one after the other, up to the first that cannot be written. Outputs
written before it stay, and so does what could be written of it. -/
def writeAll : FileTree → List Rendered → FileTree × Run Unit
  | t, [] => (t, pure ())
  | t, r :: rest =>
    match t.write r.output (Utf8.encode r.content) with
    | (broken, .error cause) => (broken, Run.fail (.outputWrite r.output cause))
    | (written, .ok _) =>
      let (final, more) := writeAll written rest
      (final, do Run.log (.outputWritten r.output); more)

/-- Render every template of a project and write the outputs. -/
def run (t : FileTree) (root : Path) (definitions : Definitions) (options : Options) :
    FileTree × Run Report :=
  let rendered := render t root definitions options
  match rendered.result with
  | .error _ => (t, rendered)
  | .ok report =>
    let (final, written) := writeAll t report.rendered
    (final, do
      let report ← rendered
      written
      return report)

end EnvTemplates
