import EnvTemplates.Text.Basic

/-!
# Variables

The variables of an environment: an ordered list of keys with their values, each key at most once.
Declaring a key again drops the earlier declaration and appends the new one, so that the last
declaration decides both the value and the place.

`Variables.parse` reads them from lines of the form `key=value`, `Variables.print` writes them
back.
-/

namespace EnvTemplates

structure Variable where
  /-- The name that placeholders refer to. Any text can be a key. -/
  key : Text
  value : Text
  deriving DecidableEq, Repr

namespace Variable

/-- The placeholder text that the variable replaces. -/
def token (v : Variable) : Text := '$' :: '{' :: v.key ++ ['}']

/-- Read a declaration: the key stands before the first `=`, the value after it. Without `=`, the
whole text is the key and the value is empty. -/
def ofDeclaration (line : Text) : Variable :=
  ⟨line.takeWhile (· != '='), (line.dropWhile (· != '=')).drop 1⟩

def toDeclaration (v : Variable) : Text := v.key ++ '=' :: v.value

end Variable

/-- Variables in the order of their last declaration, with distinct keys. -/
structure Variables where
  toList : List Variable := []
  /-- No key is declared twice. -/
  distinct : (toList.map (·.key)).Nodup := by simp
  deriving DecidableEq

namespace Variables

instance : Inhabited Variables := ⟨{}⟩

def keys (vs : Variables) : List Text := vs.toList.map (·.key)

def size (vs : Variables) : Nat := vs.toList.length

def get? (vs : Variables) (key : Text) : Option Text :=
  (vs.toList.find? fun v => v.key = key).map (·.value)

def without (key : Text) (l : List Variable) : List Variable := l.filter fun v => v.key ≠ key

theorem nodup_append_without {l : List Variable} (h : (l.map (·.key)).Nodup) (v : Variable) :
    ((without v.key l ++ [v]).map (·.key)).Nodup := by
  have hsub : ((without v.key l).map (·.key)).Nodup :=
    h.sublist ((List.filter_sublist).map _)
  rw [List.map_append, List.nodup_append]
  refine ⟨hsub, by simp, ?_⟩
  intro a ha b hb
  simp only [List.map_cons, List.map_nil, List.mem_singleton] at hb
  subst hb
  rintro rfl
  obtain ⟨u, hu, hkey⟩ := List.mem_map.1 ha
  simp only [without, ne_eq, decide_not, List.mem_filter, Bool.not_eq_true',
    decide_eq_false_iff_not] at hu
  exact hu.2 hkey

/-- Declare a variable: an earlier declaration of its key is dropped. -/
def insert (vs : Variables) (v : Variable) : Variables where
  toList := without v.key vs.toList ++ [v]
  distinct := nodup_append_without vs.distinct v

def insertAll (vs : Variables) (l : List Variable) : Variables := l.foldl insert vs

def ofList (l : List Variable) : Variables := insertAll {} l

/-! ### Reading and writing -/

/-- The declaration on a line, unless the line is blank or a comment. -/
def declaration? (line : Text) : Option Variable :=
  match line.trim with
  | [] => none
  | '#' :: _ => none
  | c :: rest => some (Variable.ofDeclaration (c :: rest))

def declarations (text : Text) : List Variable := text.lines.filterMap declaration?

def parse (text : Text) : Variables := ofList (declarations text)

/-- Write each variable on a line of its own. -/
def print (vs : Variables) : Text := vs.toList.flatMap fun v => v.toDeclaration ++ ['\n']

end Variables

end EnvTemplates
