import EnvTemplates.Config

/-!
# Sessions

A session holds what a caller works with over several requests: a file tree, how templates are
found, the definitions of one environment, the context that templates are processed in, and the
last report. Each request is a function on the session. What a request asks for is a `Run`; a
request that fails leaves the session as it was, apart from the outputs that were written before
the failure.
-/

namespace EnvTemplates

/-- The definitions before any are loaded: the environment `prod`, without variables. -/
def Definitions.initial : Definitions where
  environment := "prod".toList
  path := .ofText "prod.env".toList
  vars := .ofList []

/-- What is kept between requests. -/
structure Session where
  tree : FileTree
  options : Options := {}
  definitionsSuffix : Text := defaultDefinitionsSuffix
  definitions : Definitions := .initial
  /-- The context that templates are processed in. -/
  context : RunContext := .start definitions.vars
  /-- The report of the last project rendered. -/
  report? : Option Report := none

namespace Session

/-- What a request asks for, and the session after it. -/
abbrev Reply (α : Type) := Run α × Session

/-- Reply to a request. If it succeeded, the session changes as `update` says. -/
def reply {α : Type} (s : Session) (r : Run α) (update : α → Session) : Reply α :=
  match r.result with
  | .ok a => (r, update a)
  | .error _ => (r, s)

/-! ### Settings -/

def setOptions (s : Session) (templateSuffix : Option Text) (exclude : Option (List Text)) :
    Session :=
  { s with options :=
    ⟨templateSuffix.getD s.options.templateSuffix, exclude.getD s.options.exclude⟩ }

/-- Take the settings from the configuration of a project. -/
def configure (s : Session) (root : Path) : Reply Config :=
  s.reply (Config.load s.tree root) fun config =>
    { s with options := config.options, definitionsSuffix := config.definitionsSuffix }

/-! ### Definitions -/

/-- Use other definitions, in a context of their own. -/
def setDefinitions (s : Session) (definitions : Definitions) : Session :=
  { s with definitions := definitions, context := .start definitions.vars }

def define (s : Session) (environment : Text) (vars : Variables) : Session :=
  s.setDefinitions ⟨environment, .ofText (environment ++ s.definitionsSuffix), vars⟩

/-- Read a definitions file and use it. The suffix is that of the session unless another one is
given. -/
def loadDefinitions (s : Session) (path : Path) (suffix : Option Text) : Reply Definitions :=
  s.reply (Definitions.load s.tree path (suffix.getD s.definitionsSuffix)) s.setDefinitions

/-! ### Templates -/

def process (s : Session) (template : Path) : Reply Report :=
  let processed := EnvTemplates.process s.tree s.definitions s.options s.context template
  let (after, session) := s.reply processed fun context => { s with context := context }
  (RunContext.finish <$> after, session)

def render (s : Session) (root : Path) : Reply Report :=
  s.reply (EnvTemplates.render s.tree root s.definitions s.options) fun report =>
    { s with report? := some report }

/-- Write the outputs of the report that was kept, and give their number. -/
def write (s : Session) : Reply (Option Nat) :=
  match s.report? with
  | none => (pure none, s)
  | some report =>
    let (tree, written) := writeAll s.tree report.rendered
    ((fun _ => some report.rendered.length) <$> written, { s with tree := tree })

def run (s : Session) (root : Path) : Reply Report :=
  let (tree, report) := EnvTemplates.run s.tree root s.definitions s.options
  (report, { s with tree := tree })

end Session

end EnvTemplates
