import EnvTemplates.FileTree
import EnvTemplates.Run
import EnvTemplates.Variables

/-!
# Definitions files

A definitions file declares the variables of one environment. Its name is the environment's name
followed by a suffix.
-/

namespace EnvTemplates

structure Definitions where
  environment : Text
  path : Path
  vars : Variables
  deriving DecidableEq

namespace Definitions

/-- The environment that a definitions file is for: what its name has before the suffix, which must
not be nothing. -/
def environmentName (path : Path) (suffix : Text) : Except Error Text :=
  match path.fileNameText?.bind (dropEnd? suffix) with
  | some (c :: rest) => .ok (c :: rest)
  | _ => .error (.invalidDefinitionsFile path suffix)

/-- Read a definitions file. The name of the file is looked at before its contents. -/
def load (t : FileTree) (path : Path) (suffix : Text) : Run Definitions := do
  let environment ← .ofExcept (environmentName path suffix)
  let text ← .ofExcept ((t.readText path).mapError (.definitionsRead path))
  let vars := Variables.parse text
  Run.log (.definitionsLoaded path environment vars.size)
  return ⟨environment, path, vars⟩

end Definitions

end EnvTemplates
