import EnvTemplates.FileTree
import EnvTemplates.Text.Replace

/-!
# Listings

A listing names the entries of a file tree, one a line: a directory ends with a slash, a link is
written `name -> target`, and anything else is a file. It says nothing about what files hold.
-/

namespace EnvTemplates.CommandLine

/-- An entry of a file tree as a listing names it. -/
inductive Listed where
  | file (path : Path)
  | directory (path : Path)
  | link (path target : Path)
  deriving DecidableEq, Repr

namespace Listed

def arrow : Text := " -> ".toList

def ofLine (described : Text) : Listed :=
  match Text.pieces id arrow described with
  | name :: target :: more =>
    .link (.ofText name) (.ofText (target ++ more.flatMap fun piece => arrow ++ piece))
  | _ =>
    if (dropEnd? ['/'] described).isSome then .directory (.ofText described)
    else .file (.ofText described)

/-- Add an entry to a file tree, with what a file holds. An entry that fits nowhere is left out. -/
def addTo (t : FileTree) (contents : Bytes) : Listed → FileTree
  | .file path => (t.add path (.file contents)).toOption.getD t
  | .directory path => (t.add path .directory).toOption.getD t
  | .link path target => (t.add path (.link target)).toOption.getD t

end Listed

end EnvTemplates.CommandLine
