import EnvTemplates.Path

/-!
# Log events

What a run reports while it works, as data: an event for each thing worth logging, with its level,
its message and its named fields.
-/

namespace EnvTemplates

/-- How important an event is, the most important first. -/
inductive Level where
  | error
  | warn
  | info
  | debug
  | trace
  deriving DecidableEq, Repr

namespace Level

def rank : Level → Nat
  | .error => 0
  | .warn => 1
  | .info => 2
  | .debug => 3
  | .trace => 4

/-- Whether a log kept at level `limit` shows an event of level `level`. -/
def admits (limit level : Level) : Bool := level.rank ≤ limit.rank

def name : Level → String
  | .error => "error"
  | .warn => "warn"
  | .info => "info"
  | .debug => "debug"
  | .trace => "trace"

end Level

inductive Event where
  /-- A variable whose value contains its own placeholder was substituted, once only. -/
  | selfReference (key : Text)
  /-- A variable's placeholder was still present after the last pass. -/
  | passLimit (key : Text) (passes : Nat)
  | substituted (key : Text) (count : Nat)
  | definitionsLoaded (path : Path) (environment : Text) (count : Nat)
  | configLoaded (path : Path)
  | excluded (path : Path)
  | templateFound (template : Path)
  | outputNamed (template : Path) (output : Text)
  | templateSubstituted (template : Path) (replacements : Nat)
  | outputWritten (output : Path)
  deriving DecidableEq, Repr

namespace Event

def level : Event → Level
  | .selfReference _ => .warn
  | .passLimit _ _ => .warn
  | .substituted _ _ => .trace
  | .excluded _ => .trace
  | _ => .debug

def message : Event → String
  | .selfReference _ => "value contains its own placeholder"
  | .passLimit _ _ => "placeholder still present after maximum substitution passes"
  | .substituted _ _ => "substituted variable"
  | .definitionsLoaded _ _ _ => "loaded definitions"
  | .configLoaded _ => "loaded config"
  | .excluded _ => "excluded"
  | .templateFound _ => "found template"
  | .outputNamed _ _ => "resolved output name"
  | .templateSubstituted _ _ => "substituted template"
  | .outputWritten _ => "wrote output"

@[simp] theorem message_selfReference (key : Text) :
    (selfReference key).message = "value contains its own placeholder" := rfl

@[simp] theorem message_passLimit (key : Text) (passes : Nat) :
    (passLimit key passes).message =
      "placeholder still present after maximum substitution passes" := rfl

def details : Event → List (String × Text)
  | .selfReference key => [("key", key)]
  | .passLimit key passes => [("key", key), ("passes", Text.ofNat passes)]
  | .substituted key count => [("key", key), ("count", Text.ofNat count)]
  | .definitionsLoaded path environment count =>
    [("path", path.display), ("environment", environment), ("variables", Text.ofNat count)]
  | .configLoaded path => [("path", path.display)]
  | .excluded path => [("path", path.display)]
  | .templateFound template => [("template", template.display)]
  | .outputNamed template output => [("template", template.display), ("output", output)]
  | .templateSubstituted template replacements =>
    [("template", template.display), ("replacements", Text.ofNat replacements)]
  | .outputWritten output => [("output", output.display)]

def isWarning (e : Event) : Bool := e.level = .warn

end Event

end EnvTemplates
