import EnvTemplates.Text.Utf8

/-!
# Paths

A path is a list of bytes with `/` between its parts. Its meaning is in its `components`: empty
parts and single dots say nothing, apart from a dot at the very start. Parents, file names and
relative paths are taken component by component, but what is left of a path keeps its own spelling,
so that it is displayed as it was given.
-/

namespace EnvTemplates

/-- A path, as it was spelled. -/
structure Path where
  bytes : Bytes
  deriving DecidableEq, Repr

/-- What one part of a path stands for. -/
inductive Component where
  | root
  /-- The dot at the start of a relative path. -/
  | here
  | up
  | name (bytes : Bytes)
  deriving DecidableEq, Repr

namespace Path

/-! ### Spelling -/

/-- The byte that separates the parts of a path. -/
def slash : UInt8 := 0x2F

def dot : Bytes := [0x2E]

def dots : Bytes := [0x2E, 0x2E]

def ofText (t : Text) : Path := ⟨Utf8.encode t⟩

/-- The path as text, with replacement characters where it is not UTF-8. -/
def display (p : Path) : Text := Utf8.decodeLossy p.bytes

def isAbsolute (p : Path) : Bool := p.bytes.head? = some slash

/-- The parts of a path between its slashes, as they were spelled. -/
def segments (p : Path) : List Bytes := fields (· == slash) p.bytes

def ofSegments (parts : List Bytes) : Path := ⟨[slash].intercalate parts⟩

/-- A part that says nothing: an empty one or a dot. -/
def isIdle (part : Bytes) : Bool := part = [] || part = dot

/-- A part that can be the name of an entry of a directory. -/
def IsName (part : Bytes) : Prop := isIdle part = false ∧ part ≠ dots ∧ slash ∉ part

instance (part : Bytes) : Decidable (IsName part) :=
  inferInstanceAs (Decidable (isIdle part = false ∧ part ≠ dots ∧ slash ∉ part))

/-- The root directory or the dot that a path starts with, as it was spelled. -/
def front (p : Path) : Bytes :=
  if p.isAbsolute then [slash]
  else if p.segments.head? = some dot then dot
  else []

/-- The parts of a path behind its front. -/
def body (p : Path) : List Bytes := fields (· == slash) (p.bytes.drop p.front.length)

def component? (part : Bytes) : Option Component :=
  if isIdle part then none
  else if part = dots then some .up
  else some (.name part)

/-- What a path stands for, part by part. -/
def components (p : Path) : List Component :=
  (if p.front = [] then [] else if p.isAbsolute then [.root] else [.here]) ++
    p.body.filterMap component?

/-! ### Parts of a path -/

/-- The parts without the idle ones at their end. -/
def trimParts (parts : List Bytes) : List Bytes := (parts.reverse.dropWhile isIdle).reverse

/-- The last component of a path, if it names an entry of a directory. -/
def fileName? (p : Path) : Option Bytes :=
  match (trimParts p.body).getLast? with
  | some part => if part = dots then none else some part
  | none => none

/-- The last component of a path as text, if it names an entry and is UTF-8. -/
def fileNameText? (p : Path) : Option Text := p.fileName?.bind Utf8.decode?

/-- The path without its last component. The root directory and the empty path have no parent. -/
def parent? (p : Path) : Option Path :=
  match trimParts p.body with
  | [] => if p.front = dot then some ⟨[]⟩ else none
  | parts => some ⟨p.front ++ (ofSegments (trimParts parts.dropLast)).bytes⟩

/-- The path that `q` stands for when it is read in the directory `p`. -/
def join (p q : Path) : Path :=
  if q.isAbsolute then q
  else if p.bytes = [] || p.bytes.getLast? = some slash then ⟨p.bytes ++ q.bytes⟩
  else ⟨p.bytes ++ slash :: q.bytes⟩

/-- The parts that are left when the first `count` components are taken away. -/
def dropComponents : (count : Nat) → List Bytes → List Bytes
  | 0, parts => parts
  | _ + 1, [] => []
  | count + 1, part :: parts =>
    dropComponents (if isIdle part then count + 1 else count) parts

/-- The path relative to `base`, if the components of `base` come first in it. -/
def relativeTo? (p base : Path) : Option Path :=
  let count := base.components.length
  if base.components.isPrefixOf p.components then
    if count = 0 then some ⟨p.front ++ (ofSegments (trimParts p.body)).bytes⟩
    else
      let parts := dropComponents (if p.front = [] then count else count - 1) p.body
      some (ofSegments (trimParts (parts.dropWhile isIdle)))
  else none

def relativeTo (p base : Path) : Path := (p.relativeTo? base).getD p

end Path

end EnvTemplates
