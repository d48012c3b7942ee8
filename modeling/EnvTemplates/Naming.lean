import EnvTemplates.Text.Case
import EnvTemplates.Text.Replace

/-!
# Output names

A template is named after its output with a suffix at the end and, where the name of the
environment belongs, a marker. `outputName` drops the suffix and puts the environment's name in the
place of every marker, in the case style that the first marker asks for:

| marker  | style                       |
|---------|-----------------------------|
| `.Env.` | words capitalised and joined |
| `.env.` | lowercase                   |
| `.ENV.` | uppercase                   |
-/

namespace EnvTemplates

/-- The case style that a template's name asks for. -/
inductive Marker where
  | pascal
  | lower
  | upper
  deriving DecidableEq, Repr

namespace Marker

/-- The markers, in the order in which they are looked for. -/
def all : List Marker := [.pascal, .lower, .upper]

/-- The text of a marker. -/
def text : Marker → Text
  | .pascal => ['.', 'E', 'n', 'v', '.']
  | .lower => ['.', 'e', 'n', 'v', '.']
  | .upper => ['.', 'E', 'N', 'V', '.']

/-- The marker of a file name: the first of `all` whose text occurs in it. -/
def detect? (name : Text) : Option Marker := all.find? fun m => occursIn m.text name

end Marker

/-! ### Pascal case -/

namespace Text

/-- Turn the ASCII letter at the start of a text into a capital. -/
def capitalise : Text → Text
  | [] => []
  | c :: rest => c.toUpper :: rest

/-- A word after a separator: its first letter is made a capital and the others are made small,
unless it has fewer than two characters. -/
def capitaliseWord : Text → Text
  | c :: d :: rest => c.toUpper :: (d :: rest).map Char.toLower
  | word => word

/-- The text with `-` and `_` read as spaces, and without the characters that are then neither ASCII
letters or digits nor blank. -/
def wordText (t : Text) : Text :=
  (t.map fun c => if c == '-' || c == '_' then ' ' else c).filter fun c =>
    c.isAlphanum || isBlank c

/-- Whether a text starts with a blank. -/
def startsBlank : Text → Bool
  | [] => false
  | c :: _ => isBlank c

/-- The words of a name, joined: each word that follows a separator is capitalised, and the first
character of the whole is made a capital. -/
def pascalCase (t : Text) : Text :=
  let spaced := wordText t
  match words spaced with
  | [] => []
  | first :: more =>
    let head := if startsBlank spaced then capitaliseWord first else first
    capitalise (head ++ (more.map capitaliseWord).flatten)

end Text

/-- The name of an environment in the style that a marker asks for. -/
def Marker.style (m : Marker) (environment : Text) : Text :=
  match m with
  | .pascal => environment.pascalCase
  | .lower => environment.lower
  | .upper => environment.upper

/-- The name of a template without its suffix, or the whole name if it does not end with it. -/
def withoutSuffix (suffix template : Text) : Text := (dropEnd? suffix template).getD template

/-- The name of the file that a template is rendered to. The marker is looked for in the whole name,
and replaced, in any case, in the name without its suffix. -/
def outputName (template environment suffix : Text) : Text :=
  let stripped := withoutSuffix suffix template
  match Marker.detect? template with
  | none => stripped
  | some m =>
    Text.replaceIgnoringCase stripped Marker.lower.text ('.' :: m.style environment ++ ['.'])

end EnvTemplates
