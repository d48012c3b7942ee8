import EnvTemplates.FileTree
import EnvTemplates.Project
import EnvTemplates.Toml.Reader

/-!
# Configuration

A project may have a configuration file, a TOML document with these keys, all of them optional:

| key                  | meaning                                    |
|----------------------|--------------------------------------------|
| `template_suffix`    | the suffix of templates                    |
| `definitions_suffix` | the suffix of definitions files            |
| `exclude.patterns`   | the lines of the exclude rules             |

Any other key is an error, and so is an empty suffix.
-/

namespace EnvTemplates

/-- The suffix of definitions files, unless another one is configured. -/
def defaultDefinitionsSuffix : Text := ['.', 'e', 'n', 'v']

structure Config where
  templateSuffix : Text := defaultTemplateSuffix
  definitionsSuffix : Text := defaultDefinitionsSuffix
  exclude : List Text := []
  deriving DecidableEq, Repr

namespace Config

open Toml (Value Entries)

/-! ### Reading a document -/

def hasOnly (keys : List String) (es : Entries) : Bool :=
  es.all fun e => keys.any fun k => k.toList = e.1

/-- The text of a key, or the given one if the key is missing. -/
def textOr (default : Text) (key : String) (es : Entries) : Option Text :=
  match es.lookup key.toList with
  | none => some default
  | some (.text t) => some t
  | some _ => none

/-- The texts of an array that has nothing else. -/
def texts? : List Value → Option (List Text)
  | [] => some []
  | .text t :: more => (texts? more).map (t :: ·)
  | _ :: _ => none

/-- The exclude rules. They are a table with patterns, or an array whose first element has the
patterns. -/
def patterns? (es : Entries) : Option (List Text) :=
  match es.lookup "exclude".toList with
  | none => some []
  | some (.table _ inner) =>
    if hasOnly ["patterns"] inner then
      match inner.lookup "patterns".toList with
      | none => some []
      | some (.array vs) => texts? vs
      | some _ => none
    else none
  | some (.array []) => some []
  | some (.array (.array vs :: _)) => texts? vs
  | some _ => none

def ofEntries? (es : Entries) : Option Config :=
  if hasOnly ["template_suffix", "definitions_suffix", "exclude"] es then do
    let templateSuffix ← textOr defaultTemplateSuffix "template_suffix" es
    let definitionsSuffix ← textOr defaultDefinitionsSuffix "definitions_suffix" es
    return ⟨templateSuffix, definitionsSuffix, ← patterns? es⟩
  else none

/-- Read a configuration. The suffixes are looked at once the document is known to be sound. -/
def parse (document : Text) : Except ConfigProblem Config :=
  match (Toml.parse? document).bind ofEntries? with
  | none => .error .document
  | some config =>
    if config.templateSuffix = [] then .error .emptyTemplateSuffix
    else if config.definitionsSuffix = [] then .error .emptyDefinitionsSuffix
    else .ok config

def options (config : Config) : Options := ⟨config.templateSuffix, config.exclude⟩

/-! ### Finding the file -/

/-- The places of a configuration file in a project, the first choice first. -/
def candidates : List String := ["envt.toml", ".envt.toml", ".config/envt.toml"]

/-- The configuration file of a project, if it has one. -/
def find? (t : FileTree) (root : Path) : Option Path :=
  (candidates.map fun name => root.join (.ofText name.toList)).find? t.isFile

def load? (t : FileTree) (root : Path) : Run (Option Config) :=
  match find? t root with
  | none => return none
  | some path => do
    let document ← .ofExcept ((t.readText path).mapError .io)
    let config ← .ofExcept ((parse document).mapError .configParse)
    Run.log (.configLoaded path)
    return some config

/-- Read the configuration of a project, or take the default one if it has none. -/
def load (t : FileTree) (root : Path) : Run Config := do
  return (← load? t root).getD {}

end Config

end EnvTemplates
