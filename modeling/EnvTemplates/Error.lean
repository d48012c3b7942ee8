import EnvTemplates.Path

/-!
# Errors

Why a run fails, as causes. The wording that a user sees is derived from the cause in one place:
`Error.message`, `Error.code` and `Error.help?`.
-/

namespace EnvTemplates

inductive FileError where
  | notFound
  | isADirectory
  | notADirectory
  | invalidData
  /-- The path contains a zero byte. -/
  | invalidInput
  /-- The path or one of its names is too long. -/
  | invalidFilename
  | linkLoop
  | permissionDenied
  | storageFull
  /-- The device failed. -/
  | device
  deriving DecidableEq, Repr

namespace FileError

def message : FileError → String
  | .notFound => "No such file or directory (os error 2)"
  | .isADirectory => "Is a directory (os error 21)"
  | .notADirectory => "Not a directory (os error 20)"
  | .invalidData => "stream did not contain valid UTF-8"
  | .invalidInput => "file name contained an unexpected NUL byte"
  | .invalidFilename => "File name too long (os error 36)"
  | .linkLoop => "Too many levels of symbolic links (os error 40)"
  | .permissionDenied => "Permission denied (os error 13)"
  | .storageFull => "No space left on device (os error 28)"
  | .device => "Input/output error (os error 5)"

end FileError

inductive GlobError where
  | invalidRange (first last : Char)
  | unopenedGroup
  | unclosedGroup
  | danglingEscape
  deriving DecidableEq, Repr

namespace GlobError

def message : GlobError → String
  | .invalidRange first last =>
    "invalid range; '" ++ first.toString ++ "' > '" ++ last.toString ++ "'"
  | .unopenedGroup =>
    "unopened alternate group; missing '\x7b' (maybe escape '\x7d' with '[\x7d]'?)"
  | .unclosedGroup =>
    "unclosed alternate group; missing '\x7d' (maybe escape '\x7b' with '[\x7b]'?)"
  | .danglingEscape => "dangling '\\'"

end GlobError

inductive ConfigProblem where
  /-- The document is not TOML, or its keys or values are not those of a configuration. -/
  | document
  | emptyTemplateSuffix
  | emptyDefinitionsSuffix
  /-- An exclude pattern is malformed. `glob` is the part of it that was read as a glob. -/
  | excludePattern (pattern glob : Text) (reason : GlobError)
  | excludeDepth
  deriving DecidableEq, Repr

namespace ConfigProblem

/-- The wording of a configuration's fault. Faults of the document and the depth of patterns have no
wording of their own. -/
def message : ConfigProblem → String
  | .document => "<toml>"
  | .emptyTemplateSuffix => "`template_suffix` must not be empty"
  | .emptyDefinitionsSuffix => "`definitions_suffix` must not be empty"
  | .excludePattern pattern glob reason =>
    "invalid exclude pattern `" ++ String.ofList pattern ++ "`: error parsing glob '" ++
      String.ofList glob ++ "': " ++ reason.message
  | .excludeDepth => "<toml>"

end ConfigProblem

inductive Error where
  /-- A configuration file or a directory cannot be read. -/
  | io (cause : FileError)
  /-- The name of a definitions file does not end with the suffix, or has nothing before it. -/
  | invalidDefinitionsFile (file : Path) (suffix : Text)
  | definitionsRead (path : Path) (cause : FileError)
  | templateRead (path : Path) (cause : FileError)
  | outputWrite (path : Path) (cause : FileError)
  | configParse (problem : ConfigProblem)
  /-- A directory contains itself by way of links. -/
  | symlinkCycle (path : Path)
  deriving DecidableEq, Repr

namespace Error

def message : Error → String
  | .io cause => cause.message
  | .invalidDefinitionsFile file suffix =>
    "definitions file `" ++ String.ofList file.display ++ "` must end with `" ++
      String.ofList suffix ++ "`"
  | .definitionsRead path _ =>
    "failed to read definitions file `" ++ String.ofList path.display ++ "`"
  | .templateRead path _ => "failed to read template `" ++ String.ofList path.display ++ "`"
  | .outputWrite path _ => "failed to write output file `" ++ String.ofList path.display ++ "`"
  | .configParse problem => "failed to parse config file: " ++ problem.message
  | .symlinkCycle path => "symlink cycle detected at: `" ++ String.ofList path.display ++ "`"

/-- The file system's refusal behind an error, if there is one. -/
def cause? : Error → Option FileError
  | .io cause => some cause
  | .definitionsRead _ cause => some cause
  | .templateRead _ cause => some cause
  | .outputWrite _ cause => some cause
  | _ => none

def code : Error → String
  | .io _ => "envt::io_error"
  | .invalidDefinitionsFile _ _ => "envt::invalid_definitions_file"
  | .definitionsRead _ _ => "envt::definitions_read"
  | .templateRead _ _ => "envt::template_read"
  | .outputWrite _ _ => "envt::output_write"
  | .configParse _ => "envt::config_parse"
  | .symlinkCycle _ => "envt::symlink_cycle"

def help? : Error → Option String
  | .invalidDefinitionsFile _ suffix =>
    some ("rename the file so the environment name is followed by `" ++ String.ofList suffix ++
      "`, e.g. `prod" ++ String.ofList suffix ++ "`")
  | .configParse _ =>
    some ("check that envt.toml is valid TOML with optional suffix keys and an [exclude] " ++
      "section")
  | .symlinkCycle _ =>
    some "remove the circular symlink or exclude this path in envt.toml"
  | _ => none

end Error

end EnvTemplates
