import EnvTemplates.Substitution

/-!
# Reports

A `RunContext` accumulates what the templates of one run contribute: how often each variable was
replaced, which placeholders no variable satisfied, and what was rendered. Finishing it gives a
`Report`, whose warnings name the unused variables first, in declaration order, and then the
unresolved placeholders in the order found.
-/

namespace EnvTemplates

structure Rendered where
  template : Path
  output : Path
  content : Text
  replacements : Nat
  deriving DecidableEq, Repr

/-- A placeholder in a template that no variable satisfied. -/
structure UnresolvedKey where
  key : Text
  file : Path
  deriving DecidableEq, Repr

/-! ### Warnings -/

/-- A problem that does not make a run fail. -/
inductive Warning where
  | unusedVariable (key : Text)
  | unresolved (placeholder : UnresolvedKey)
  deriving DecidableEq, Repr

namespace Warning

def key : Warning → Text
  | .unusedVariable key => key
  | .unresolved placeholder => placeholder.key

/-- The wording of a warning, with paths displayed by `display`. -/
def messageWith (display : Path → Path) : Warning → String
  | .unusedVariable key =>
    "no template references variable `" ++ String.ofList key ++ "`"
  | .unresolved placeholder =>
    "no variable defined for `" ++ String.ofList placeholder.key ++ "` (" ++
      String.ofList (display placeholder.file).display ++ ")"

def message (w : Warning) : String := w.messageWith id

/-- The wording of a warning, with paths relative to a root. -/
def messageIn (root : Path) (w : Warning) : String := w.messageWith fun p => p.relativeTo root

end Warning

/-! ### Accumulating -/

/-- What the templates of a run have contributed so far. -/
structure RunContext where
  /-- The replacements of each key, the declared keys first. -/
  counts : List Tally
  unresolved : List UnresolvedKey := []
  rendered : List Rendered := []
  deriving DecidableEq, Repr

namespace RunContext

/-- The context before the first template: every variable was replaced zero times. -/
def start (vars : Variables) : RunContext where
  counts := vars.keys.map fun key => ⟨key, 0⟩

/-- Add a tally to the count of its key, which is appended if there is none. -/
def addTally (counts : List Tally) (t : Tally) : List Tally :=
  if (Tally.count? t.key counts).isSome then Tally.addTo t.key t.count counts
  else counts ++ [t]

/-- Add the counts and the unresolved placeholders of a template. -/
def record (context : RunContext) (template : Path) (s : Substitution) : RunContext :=
  { context with
    counts := s.replacements.foldl addTally context.counts
    unresolved := context.unresolved ++ s.unresolved.map fun key => ⟨key, template⟩ }

def pushRendered (context : RunContext) (r : Rendered) : RunContext :=
  { context with rendered := context.rendered ++ [r] }

/-- The replacements of a key in all templates so far. -/
def count (context : RunContext) (key : Text) : Nat :=
  (Tally.count? key context.counts).getD 0

end RunContext

/-! ### Reporting -/

structure Report where
  rendered : List Rendered
  counts : List Tally
  warnings : List Warning
  deriving DecidableEq, Repr

def RunContext.finish (context : RunContext) : Report where
  rendered := context.rendered
  counts := context.counts
  warnings :=
    (context.counts.filter fun t => t.count = 0).map (fun t => .unusedVariable t.key) ++
      context.unresolved.map .unresolved

namespace Report

def unusedVariables (r : Report) : List Text :=
  r.warnings.filterMap fun
    | .unusedVariable key => some key
    | .unresolved _ => none

def unresolvedKeys (r : Report) : List UnresolvedKey :=
  r.warnings.filterMap fun
    | .unusedVariable _ => none
    | .unresolved placeholder => some placeholder

end Report

end EnvTemplates
