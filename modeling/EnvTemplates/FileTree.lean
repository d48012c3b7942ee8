import EnvTemplates.Error

/-!
# File trees

A file tree holds directories, files and symbolic links by location, the list of names that leads
to them from the root directory. Paths are resolved against it as a Unix kernel does: part by part,
following links, with `..` taken after the link before it has been followed.

* `locate` resolves a path; it gives the location of a file or directory, never of a link.
* `destination` resolves a path that is about to be written: its last name need not exist yet.
* `canonicalize` gives a path from the root directory, without links. It looks up each part of the
  way by such a path, so that it can fail for a path that `locate` resolves.
* `list` lists a directory in the order of the names' bytes.

A tree may have faults: directories that cannot be listed, files that cannot be read or written, and
files that a write ends in before all bytes are in it. Every directory can be passed through.
-/

namespace EnvTemplates

abbrev Name := Bytes

/-- A place in a file tree: the names that lead to it from the root directory. -/
abbrev Location := List Name

/-- Under a name of its own, for all that decides whether a list holds a location. -/
instance : LawfulBEq Location := inferInstance

/-- What stands at a location. -/
inductive Node where
  | file (contents : Bytes)
  | directory
  | link (target : Path)
  deriving DecidableEq, Repr

/-- A location is well-formed if all names on the way to it are. -/
def Location.IsNamed (at' : Location) : Prop := ∀ name ∈ at', Path.IsName name

instance (at' : Location) : Decidable at'.IsNamed :=
  inferInstanceAs (Decidable (∀ name ∈ at', Path.IsName name))

/-- What a location may be asked for. -/
inductive Access where
  | list
  | read
  | write
  deriving DecidableEq, Repr

/-- What goes wrong at a location, whatever stands there. -/
inductive Fault where
  | refuses (access : Access) (cause : FileError)
  /-- A write ends after some bytes, if there are more. -/
  | fills (bytes : Nat) (cause : FileError)
  deriving DecidableEq, Repr

/-- The files, directories and links at their locations, each location at most once. -/
structure FileTree where
  /-- What stands where, apart from the root directory. -/
  entries : List (Location × Node) := []
  workingDirectory : Location := []
  faults : List (Location × Fault) := []
  /-- Nothing stands where something else stands. -/
  distinct : (entries.map (·.1)).Nodup := by simp
  /-- What stands somewhere has a name. -/
  named : ∀ l ∈ entries.map (·.1), l.IsNamed := by simp
  deriving DecidableEq

namespace FileTree

instance : Inhabited FileTree := ⟨{}⟩

/-! ### Nodes -/

/-- What stands at a location. The root directory is always there. -/
def node? (t : FileTree) (at' : Location) : Option Node :=
  if at' = [] then some .directory else t.entries.lookup at'

/-- Put a node in the place of the one at a location, or behind all others. -/
def place (at' : Location) (n : Node) : List (Location × Node) → List (Location × Node)
  | [] => [(at', n)]
  | e :: rest => if e.1 = at' then (at', n) :: rest else e :: place at' n rest

theorem mem_place {at' l : Location} {n : Node} :
    ∀ {es : List (Location × Node)}, l ∈ (place at' n es).map (·.1) →
      l = at' ∨ l ∈ es.map (·.1)
  | [], h => by simpa [place] using h
  | e :: rest, h => by
    unfold place at h
    split at h
    · next he =>
      simp only [List.map_cons, List.mem_cons] at h ⊢
      exact h.imp id (Or.inr ·)
    · simp only [List.map_cons, List.mem_cons] at h ⊢
      rcases h with h | h
      · exact Or.inr (Or.inl h)
      · exact (mem_place h).imp id (Or.inr ·)

theorem nodup_place {at' : Location} {n : Node} :
    ∀ {es : List (Location × Node)}, (es.map (·.1)).Nodup →
      ((place at' n es).map (·.1)).Nodup
  | [], _ => by simp [place]
  | e :: rest, h => by
    rw [List.map_cons, List.nodup_cons] at h
    unfold place
    split
    · next he =>
      rw [List.map_cons, List.nodup_cons]
      exact ⟨he ▸ h.1, h.2⟩
    · next he =>
      rw [List.map_cons, List.nodup_cons]
      refine ⟨fun hmem => ?_, nodup_place h.2⟩
      rcases mem_place hmem with heq | hin
      · exact he heq
      · exact h.1 hin

theorem named_place {at' : Location} {n : Node} {es : List (Location × Node)}
    (h : ∀ l ∈ es.map (·.1), l.IsNamed) (hnamed : at'.IsNamed) :
    ∀ l ∈ (place at' n es).map (·.1), l.IsNamed := by
  intro l hl
  rcases mem_place hl with rfl | hold
  · exact hnamed
  · exact h l hold

/-- Put a node at a location, if all names that lead to it are well-formed. -/
def set (t : FileTree) (at' : Location) (n : Node) : FileTree :=
  if h : at'.IsNamed then
    { t with
      entries := place at' n t.entries
      distinct := nodup_place t.distinct
      named := named_place t.named h }
  else t

/-- Take away everything at a location and below it. -/
def removeAt (t : FileTree) (at' : Location) : FileTree :=
  { t with
    entries := t.entries.filter fun e => !at'.isPrefixOf e.1
    distinct := t.distinct.sublist ((List.filter_sublist).map _)
    named := fun l hl => t.named l (((List.filter_sublist).map _).subset hl) }

/-- The order of names by their bytes. -/
def nameLe (a b : Name) : Bool := decide (a ≤ b)

/-- The names of the entries of a directory, in order. -/
def names (t : FileTree) (directory : Location) : List Name :=
  (t.entries.filterMap fun e =>
    if e.1.dropLast = directory then e.1.getLast? else none).mergeSort nameLe

/-! ### Faults -/

/-- Why an access to a location is refused, if it is. -/
def refusal? (t : FileTree) (access : Access) (at' : Location) : Option FileError :=
  t.faults.findSome? fun
    | (l, .refuses refused cause) => if l = at' ∧ refused = access then some cause else none
    | (_, .fills _ _) => none

def permit (t : FileTree) (access : Access) (at' : Location) : Except FileError Unit :=
  match t.refusal? access at' with
  | some cause => .error cause
  | none => .ok ()

/-- The number of bytes that can be written to a location, if it is bounded, with what a longer
write fails with. -/
def room? (t : FileTree) (at' : Location) : Option (Nat × FileError) :=
  t.faults.findSome? fun
    | (l, .fills bytes cause) => if l = at' then some (bytes, cause) else none
    | (_, .refuses _ _) => none

/-- The names of the entries of a directory, in order, if it can be listed. -/
def list (t : FileTree) (directory : Location) : Except FileError (List Name) := do
  t.permit .list directory
  return t.names directory

/-! ### Resolving paths -/

/-- The largest number of links that are followed on the way to a location. -/
def maxLinks : Nat := 40

def maxName : Nat := 255

def maxPath : Nat := 4095

/-- Where the resolution of a path starts, for a path that is read in the given directory. -/
def start (directory : Location) (p : Path) : Location :=
  if p.isAbsolute then [] else directory

/-- Where a path leads, with the number of links that may still be followed. -/
abbrev Arrival := Location × Nat

/-- Resolve the parts of a path from a location. `links` is the number of links that may still be
followed, and `follow` resolves what comes of the next one. -/
def descend (t : FileTree) (links : Nat)
    (follow : Location → List Bytes → Except FileError Arrival) :
    Location → List Bytes → Except FileError Arrival
  | here, [] => .ok (here, links)
  | here, part :: rest =>
    if t.node? here ≠ some .directory then .error .notADirectory
    else if Path.isIdle part then descend t links follow here rest
    else if part = Path.dots then descend t links follow here.dropLast rest
    else if part.length > maxName then .error .invalidFilename
    else match t.node? (here ++ [part]) with
      | none => .error .notFound
      | some (.link target) => follow (start here target) (target.segments ++ rest)
      | some _ => descend t links follow (here ++ [part]) rest

/-- Resolve the parts of a path from a location, following at most `links` links in all. -/
def resolve (t : FileTree) : (links : Nat) → Location → List Bytes → Except FileError Arrival
  | 0 => descend t 0 fun _ _ => .error .linkLoop
  | links + 1 => descend t (links + 1) (resolve t links)

/-- Refuse the paths that name nothing in any tree. -/
def checkPath (p : Path) : Except FileError Unit :=
  if p.bytes.contains 0 then .error .invalidInput
  else if p.bytes = [] then .error .notFound
  else if p.bytes.length > maxPath then .error .invalidFilename
  else .ok ()

/-- The location of the file or directory that a path leads to. -/
def locate (t : FileTree) (p : Path) : Except FileError Location := do
  checkPath p
  return (← t.resolve maxLinks (start t.workingDirectory p) p.segments).1

/-- The location that a write to a name in a directory goes to. Nothing need stand there yet.
`follow` resolves what comes of a link, given the number of links that may still be followed. -/
def landAt (t : FileTree) (follow : Nat → Location → List Bytes → Except FileError Location)
    (name : Bytes) : Arrival → Except FileError Location
  | (directory, left) =>
    if name = Path.dot ∨ name = Path.dots then .error .isADirectory
    else if name.length > maxName then .error .invalidFilename
    else match t.node? (directory ++ [name]) with
      | some .directory => .error .isADirectory
      | some (.link target) => follow left (start directory target) target.segments
      | _ => .ok (directory ++ [name])

/-- The location that a write to the parts of a path goes to. The directory that the last name
stands in must exist, and a slash at the end asks for a directory. -/
def land (t : FileTree) (links : Nat)
    (follow : Nat → Location → List Bytes → Except FileError Location) (here : Location)
    (parts : List Bytes) : Except FileError Location := do
  let named := (parts.reverse.dropWhile (· = [])).reverse
  -- The directory is resolved first, so that its errors come before that of the slash.
  match named.getLast? with
  | none => .error .isADirectory
  | some name =>
    let arrival ← t.resolve links here (named.dropLast ++ [[]])
    if named.length < parts.length then .error .isADirectory
    else t.landAt follow name arrival

/-- The location that a write to the parts of a path goes to. At most `links` links are followed in
all, and at most `ends` of them at the end of a path. -/
def destinationFrom (t : FileTree) : (ends links : Nat) → Location → List Bytes →
    Except FileError Location
  | 0, links => t.land links fun _ _ _ => .error .linkLoop
  | ends + 1, links => t.land links fun left here parts =>
    match left with
    | 0 => .error .linkLoop
    | left + 1 => destinationFrom t ends left here parts

/-- The location of the file that a write to a path creates or overwrites. -/
def destination (t : FileTree) (p : Path) : Except FileError Location := do
  checkPath p
  t.destinationFrom maxLinks maxLinks (start t.workingDirectory p) p.segments

/-! ### Canonical paths -/

/-- The path of a location. -/
def pathOf (at' : Location) : Path :=
  if at' = [] then ⟨[Path.slash]⟩ else ⟨at'.flatMap fun name => Path.slash :: name⟩

/-- What stands at a location, looked up by its path. -/
def lookUp (t : FileTree) (at' : Location) : Except FileError Node := do
  checkPath (pathOf at')
  match t.node? at' with
  | some n => .ok n
  | none => .error .notFound

/-- Go along the parts of a path from a location, and look up each place on the way. `follow` goes
on with what comes of the next link. -/
def retrace (t : FileTree) (follow : Location → List Bytes → Except FileError Location) :
    Location → List Bytes → Except FileError Location
  | here, [] => .ok here
  | here, part :: rest =>
    if Path.isIdle part then retrace t follow here rest
    else if part = Path.dots then retrace t follow here.dropLast rest
    else if part.length > maxName then .error .invalidFilename
    else match t.lookUp (here ++ [part]) with
      | .error e => .error e
      | .ok (.link target) => follow (start here target) (target.segments ++ rest)
      | .ok _ => retrace t follow (here ++ [part]) rest

def retraceFrom (t : FileTree) : (links : Nat) → Location → List Bytes → Except FileError Location
  | 0 => retrace t fun _ _ => .error .linkLoop
  | links + 1 => retrace t (retraceFrom t links)

/-- The path from the root directory to where a path leads, without links. -/
def canonicalize (t : FileTree) (p : Path) : Except FileError Path := do
  checkPath p
  return pathOf (← t.retraceFrom maxLinks (start t.workingDirectory p) p.segments)

/-! ### Reading and writing -/

/-- What a path leads to, links followed. -/
def nodeAt? (t : FileTree) (p : Path) : Option Node :=
  match t.locate p with
  | .ok l => t.node? l
  | .error _ => none

/-- The location of the directory that a path leads to, if it leads to one. -/
def directoryAt? (t : FileTree) (p : Path) : Option Location :=
  match t.locate p with
  | .ok l => if t.node? l = some .directory then some l else none
  | .error _ => none

def isDirectory (t : FileTree) (p : Path) : Bool := (t.directoryAt? p).isSome

def isFile (t : FileTree) (p : Path) : Bool :=
  match t.nodeAt? p with
  | some (.file _) => true
  | _ => false

/-- The contents of the file that a path leads to. -/
def read (t : FileTree) (p : Path) : Except FileError Bytes := do
  match t.node? (← t.locate p) with
  | some (.file contents) => .ok contents
  | some .directory => .error .isADirectory
  | _ => .error .notFound

/-- The contents of the file that a path leads to, as text, if it can be read. -/
def readText (t : FileTree) (p : Path) : Except FileError Text := do
  t.permit .read (← t.locate p)
  match Utf8.decode? (← t.read p) with
  | some text => .ok text
  | none => .error .invalidData

/-- The location of the file that a write to a path opens, which is then empty. -/
def openFile (t : FileTree) (p : Path) : Except FileError Location := do
  let l ← t.destination p
  t.permit .write l
  return l

/-- Put bytes into a file, as many as there is room for. -/
def fill (t : FileTree) (at' : Location) (contents : Bytes) : FileTree × Except FileError Unit :=
  match t.room? at' with
  | none => (t.set at' (.file contents), .ok ())
  | some (bytes, cause) =>
    if bytes < contents.length then (t.set at' (.file (contents.take bytes)), .error cause)
    else (t.set at' (.file contents), .ok ())

/-- Write a file, creating it or overwriting what it held. Links are followed. If the file cannot be
opened the tree stays as it is; if there is not enough room, the file holds what was written. -/
def write (t : FileTree) (p : Path) (contents : Bytes) : FileTree × Except FileError Unit :=
  match t.openFile p with
  | .error cause => (t, .error cause)
  | .ok l => t.fill l contents

/-! ### Building trees -/

/-- A tree with nothing but a directory that relative paths start at, and those that lead to it. -/
def within (directory : Location) : FileTree :=
  let made : FileTree := (List.range directory.length).foldl
    (fun (t : FileTree) n => t.set (directory.take (n + 1)) .directory) {}
  { made with workingDirectory := directory }

/-- Let relative paths start at the directory that a path leads to. -/
def changeDirectory (t : FileTree) (p : Path) : Except FileError FileTree := do
  let l ← t.locate p
  if t.node? l = some .directory then return { t with workingDirectory := l }
  else .error .notADirectory

/-- Make the directories of a path that do not exist yet, and give the tree with the location of
the last one. -/
def makeDirectories (t : FileTree) (here : Location) : List Bytes →
    Except FileError (FileTree × Location)
  | [] => .ok (t, here)
  | part :: rest =>
    match t.resolve maxLinks here [part] with
    | .ok (l, _) => makeDirectories t l rest
    | .error .notFound =>
      makeDirectories (t.set (here ++ [part]) .directory) (here ++ [part]) rest
    | .error e => .error e

/-- Add a file, a directory or a link at a path, with the directories that lead to it. A file that
is already there is overwritten, links followed. -/
def add (t : FileTree) (p : Path) (n : Node) : Except FileError FileTree := do
  let parts := Path.trimParts p.segments
  let here := start t.workingDirectory p
  match n with
  | .directory => return (← t.makeDirectories here parts).1
  | .file contents =>
    let (written, result) := (← t.makeDirectories here parts.dropLast).1.write p contents
    result.map fun _ => written
  | .link target =>
    let (made, directory) ← t.makeDirectories here parts.dropLast
    return made.set (directory ++ parts.getLast?.toList) (.link target)

/-- Take away what stands at a path, with everything below it. A link is taken away itself. -/
def remove (t : FileTree) (p : Path) : Except FileError FileTree := do
  let parts := Path.trimParts p.segments
  let (directory, _) ← t.resolve maxLinks (start t.workingDirectory p) parts.dropLast
  return t.removeAt (directory ++ parts.getLast?.toList)

/-- What stands below a directory, each with its path relative to it, in the order of the bytes of
those paths. -/
def below (t : FileTree) (directory : Location) : List (Path × Node) :=
  (t.entries.filterMap fun e =>
    match dropStart? directory e.1 with
    | some (name :: more) => some (Path.ofSegments (name :: more), e.2)
    | _ => none).mergeSort fun a b => decide (a.1.bytes ≤ b.1.bytes)

end FileTree

end EnvTemplates
