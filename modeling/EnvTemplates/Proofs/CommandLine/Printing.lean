import Mathlib.Data.List.Forall2
import EnvTemplates.CommandLine.Basic
import EnvTemplates.Proofs.Variables.Declarations

/-!
# What is printed

What a user reads is said here of the printed text itself, word by word: `Shows` tells the block of
a rendered template, `Lists` the lines of a dry run, `Tells` the last line of a real one and `Warns`
the line of a warning. None of them mentions how the text is put together; that the printers print
such text is proved for each of them. The paths that a dry run lists can be read off its lines
(`lines_of_lists`).
-/

namespace EnvTemplates.CommandLine

/-! ### Pieces of text -/

/-- A text is made of one piece for each item of a list, in the order of the items. -/
def IsPrinted {α : Type} (prints : α → Text → Prop) (items : List α) (text : Text) : Prop :=
  ∃ pieces, List.Forall₂ prints items pieces ∧ text = pieces.flatten

theorem isPrinted_flatMap {α : Type} {prints : α → Text → Prop} {print : α → Text}
    (h : ∀ a, prints a (print a)) (items : List α) :
    IsPrinted prints items (items.flatMap print) := by
  refine ⟨items.map print, ?_, List.flatMap_def⟩
  rw [List.forall₂_map_right_iff]
  exact List.forall₂_same.2 fun a _ => h a

/-- A word stands alone, or between the terminal codes that switch a style on and off if there are
colours. -/
inductive SetOff (on off word : String) : (coloured : Bool) → Text → Prop where
  | plain : SetOff on off word false word.toList
  | coloured : SetOff on off word true
      ("\x1b[" ++ on ++ "m" ++ word ++ "\x1b[" ++ off ++ "m").toList

theorem setOff_apply (style : Style) (coloured : Bool) (word : String) :
    SetOff style.codes.1 style.codes.2 word coloured (style.apply coloured word) := by
  cases coloured with
  | false => exact .plain
  | true =>
    have h : SetOff style.codes.1 style.codes.2 word true _ := .coloured
    simp only [String.append_assoc] at h
    simpa only [Style.apply, Style.escape, String.append_assoc, if_true] using h

/-! ### Blocks of rendered templates -/

/-- The name that a path ends with as it is shown, which is nothing if it has none. -/
inductive ShowsName (path : Path) : Text → Prop where
  | nameless (missing : path.fileName? = none) : ShowsName path []
  | named {name : Bytes} (last : path.fileName? = some name) :
      ShowsName path (Utf8.decodeLossy name)

theorem showsName_outputFileName (r : Rendered) : ShowsName r.output (outputFileName r) := by
  rw [outputFileName]
  cases hname : r.output.fileName? with
  | none => exact .nameless hname
  | some name => exact .named hname

/-- A block shows a rendered template: the path of the template, seen from the root, the name of the
output and its content, and an empty line. -/
inductive Shows (coloured : Bool) (root : Path) (r : Rendered) : Text → Prop where
  | block {template output name : Text} (first : SetOff "1" "0" "Template:" coloured template)
      (second : SetOff "1" "0" "Output:" coloured output) (named : ShowsName r.output name) :
      Shows coloured root r
        (template ++ [' '] ++ (r.template.relativeTo root).display ++ ['\n'] ++
          output ++ [' '] ++ name ++ ['\n'] ++ r.content ++ ['\n', '\n'])

theorem shows_block (coloured : Bool) (root : Path) (r : Rendered) :
    Shows coloured root r (block coloured root r) := by
  have h : Shows coloured root r _ := .block (setOff_apply .bold coloured "Template:")
    (setOff_apply .bold coloured "Output:") (showsName_outputFileName r)
  simpa [block, line] using h

/-! ### The lines around the blocks -/

/-- The first line of a run that is asked to say more. -/
def Announces (d : Definitions) (text : Text) : Prop :=
  text = "Loaded ".toList ++ d.vars.size.repr.toList ++ " variable(s) for environment `".toList ++
    d.environment ++ "` from ".toList ++ d.path.display ++ ['\n']

theorem announces_announcement (d : Definitions) : Announces d (announcement d) := by
  simp [Announces, announcement, line, Text.ofNat]

/-- A line names an output by its path, seen from the root. -/
def Names (root : Path) (r : Rendered) (text : Text) : Prop :=
  text = "  ".toList ++ (r.output.relativeTo root).display ++ ['\n']

/-- The lines of a dry run: how many outputs a real run would write, and each of them. -/
def Lists (root : Path) (environment : Text) (rendered : List Rendered) (text : Text) : Prop :=
  ∃ outputs, IsPrinted (Names root) rendered outputs ∧
    text = "Dry run: would write ".toList ++ rendered.length.repr.toList ++
      " file(s) for environment `".toList ++ environment ++ "`:\n".toList ++ outputs

theorem lists_listing (root : Path) (environment : Text) (rendered : List Rendered) :
    Lists root environment rendered (listing root environment rendered) := by
  refine ⟨rendered.flatMap fun r => line ["  ".toList, (r.output.relativeTo root).display], ?_, ?_⟩
  · apply isPrinted_flatMap
    intro r
    simp [Names, line]
  · simp [listing, line, Text.ofNat]

theorem lines_of_names {root : Path} {rendered : List Rendered} {outputs : Text}
    (h : IsPrinted (Names root) rendered outputs)
    (hpaths : ∀ r ∈ rendered, '\n' ∉ (r.output.relativeTo root).display) :
    outputs.lines =
      (rendered.map fun r => "  ".toList ++ (r.output.relativeTo root).display) ++ [[]] := by
  obtain ⟨pieces, hpieces, rfl⟩ := h
  induction hpieces with
  | nil => rfl
  | @cons r piece rendered pieces hpiece _ ih =>
    obtain ⟨hr, hpaths⟩ := List.forall_mem_cons.1 hpaths
    have hline : '\n' ∉ "  ".toList ++ (r.output.relativeTo root).display := by
      simpa using hr
    rw [List.flatten_cons, show piece = _ from hpiece, List.append_assoc, List.singleton_append,
      Text.lines_append, Text.lines_of_oneLine hline, ih hpaths]
    rfl

/-- **The paths that a dry run lists can be read off its last lines**, if there are no line feeds in
them. -/
theorem lines_of_lists {root : Path} {environment text : Text} {rendered : List Rendered}
    (h : Lists root environment rendered text)
    (hpaths : ∀ r ∈ rendered, '\n' ∉ (r.output.relativeTo root).display) :
    ∃ first, text.lines = first ++
      (rendered.map fun r => "  ".toList ++ (r.output.relativeTo root).display) ++ [[]] := by
  obtain ⟨outputs, houtputs, rfl⟩ := h
  have hhead : "`:\n".toList = "`:".toList ++ ['\n'] := rfl
  rw [hhead, ← List.append_assoc, List.append_assoc, List.singleton_append, Text.lines_append,
    lines_of_names houtputs hpaths]
  exact ⟨_, (List.append_assoc _ _ _).symm⟩

/-- The last line of a real run: how many outputs it has written. -/
def Tells (coloured : Bool) (environment : Text) (rendered : List Rendered) (text : Text) : Prop :=
  ∃ wrote, SetOff "32" "39" "Wrote" coloured wrote ∧
    text = wrote ++ [' '] ++ rendered.length.repr.toList ++ " file(s) for environment `".toList ++
      environment ++ "`.\n".toList

theorem tells_written (coloured : Bool) (environment : Text) (rendered : List Rendered) :
    Tells coloured environment rendered (written coloured environment rendered) := by
  refine ⟨_, setOff_apply .green coloured "Wrote", ?_⟩
  simp [written, line, Text.ofNat]

/-! ### Warnings -/

/-- The wording of a warning, which names the key and, if that is in a template, the template. -/
inductive IsWorded (root : Path) : Warning → String → Prop where
  | unused (key : Text) : IsWorded root (.unusedVariable key)
      ("no template references variable `" ++ String.ofList key ++ "`")
  | unresolved (key : Text) (file : Path) : IsWorded root (.unresolved ⟨key, file⟩)
      ("no variable defined for `" ++ String.ofList key ++ "` (" ++
        String.ofList (file.relativeTo root).display ++ ")")

theorem isWorded_messageIn (root : Path) (w : Warning) : IsWorded root w (w.messageIn root) := by
  cases w with
  | unusedVariable key => exact .unused key
  | unresolved placeholder => exact .unresolved placeholder.key placeholder.file

/-- A line warns of a problem. -/
def Warns (coloured : Bool) (root : Path) (w : Warning) (text : Text) : Prop :=
  ∃ label wording, SetOff "33" "39" "warning:" coloured label ∧ IsWorded root w wording ∧
    text = label ++ [' '] ++ wording.toList ++ ['\n']

theorem warns_warningLine (coloured : Bool) (root : Path) (w : Warning) :
    Warns coloured root w (warningLine coloured root w) := by
  refine ⟨_, _, setOff_apply .yellow coloured "warning:", isWorded_messageIn root w, ?_⟩
  simp [warningLine, line]

end EnvTemplates.CommandLine
