import EnvTemplates.Glob.Pattern
import EnvTemplates.Path

/-!
# Exclude rules

The paths that a run passes over are described by lines, each of which is blank, a comment or a
rule. A rule is a glob pattern relative to the root of the project; with `!` in front it takes paths
back that earlier rules exclude. Of several rules that match, the last one decides.
-/

namespace EnvTemplates

/-- A rule that excludes paths or takes them back. -/
structure ExcludeRule where
  /-- Whether the rule takes paths back. -/
  negated : Bool
  onlyDirectories : Bool
  glob : Glob.Pattern
  deriving DecidableEq, Repr

namespace ExcludeRule

/-! ### Reading rules -/

/-- The part of a line that counts: blanks at the end do not, unless a backslash stands before the
last one. -/
def significant (line : Text) : Text :=
  if (dropEnd? ['\\', ' '] line).isSome then line else line.trimEnd

/-- The pattern for the paths that a rule matches. A pattern without a slash matches at any depth,
and one that ends in `**` matches what lies below a directory but not the directory. -/
def deepen (anchored : Bool) (pattern : Text) : Text :=
  let placed :=
    if anchored || pattern.contains '/' || pattern = ['*', '*'] then pattern
    else '*' :: '*' :: '/' :: pattern
  if (dropEnd? ['/', '*', '*'] placed).isSome then placed ++ ['/', '*'] else placed

/-- Take the slash at the end of a pattern away, with the backslash before it. The second component
tells whether there was one. -/
def dropSlash (pattern : Text) : Text × Bool :=
  match dropEnd? ['/'] pattern with
  | none => (pattern, false)
  | some rest => ((dropEnd? ['\\'] rest).getD rest, true)

/-- Read the rule on a line. The result is `none` for a line that is blank or a comment. -/
def parse (line : Text) : Except (Text × GlobError) (Option ExcludeRule) :=
  let line := if line.head? = some '#' then [] else significant line
  if line = [] then .ok none
  else
    -- An escaped mark is part of the pattern and takes nothing back.
    let escaped := ['\\', '!'].isPrefixOf line || ['\\', '#'].isPrefixOf line
    let negated := !escaped && line.head? = some '!'
    let pattern := if escaped || negated then line.drop 1 else line
    let anchored := pattern.head? = some '/'
    let (pattern, onlyDirectories) := dropSlash (if anchored then pattern.drop 1 else pattern)
    match Glob.Pattern.parse (deepen anchored pattern) with
    | .error reason => .error (line, reason)
    | .ok glob => .ok (some ⟨negated, onlyDirectories, glob⟩)

/-- Read the rules of several lines. The first malformed line is the error. -/
def parseLines : List Text → Except ConfigProblem (List ExcludeRule)
  | [] => .ok []
  | line :: more =>
    match parse line with
    | .error (glob, reason) => .error (.excludePattern line glob reason)
    | .ok rule => (parseLines more).map (rule.toList ++ ·)

/-- Read rules that can be applied: once all lines are sound, no pattern may be too deep. -/
def parseAll (lines : List Text) : Except ConfigProblem (List ExcludeRule) := do
  let rules ← parseLines lines
  if rules.any (·.glob.isTooDeep) then .error .excludeDepth else .ok rules

/-! ### Applying rules -/

/-- Whether a rule is about a relative path. -/
def applies (rule : ExcludeRule) (path : Bytes) (isDirectory : Bool) : Bool :=
  (isDirectory || !rule.onlyDirectories) && rule.glob.expression.matchesAll path

/-- Whether the rules exclude a relative path: the last rule that applies decides. -/
def excludes (rules : List ExcludeRule) (path : Bytes) (isDirectory : Bool) : Bool :=
  match rules.reverse.find? fun rule => rule.applies path isDirectory with
  | none => false
  | some rule => !rule.negated

end ExcludeRule

/-! ### Relative spelling -/

/-- What is left of `bytes` after `start`, or all of them if they do not start with it. -/
def withoutStart (start bytes : Bytes) : Bytes := (dropStart? start bytes).getD bytes

/-- The spelling of a path relative to a root, as rules are applied to it. A `./` in front of either
does not count. -/
def ruleSpelling (root path : Path) : Bytes :=
  let here : Bytes := [0x2E, 0x2F]
  let rootBytes := withoutStart here root.bytes
  let pathBytes := withoutStart here path.bytes
  if (Path.mk rootBytes).components ≠ [.here] && pathBytes.contains Path.slash then
    match dropStart? rootBytes pathBytes with
    | some rest => withoutStart [Path.slash] rest
    | none => pathBytes
  else pathBytes

end EnvTemplates
