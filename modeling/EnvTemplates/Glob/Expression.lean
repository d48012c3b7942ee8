import EnvTemplates.Text.Basic

/-!
# Regular expressions over bytes

The language of a glob pattern, as a regular expression in which only single bytes are repeated.

An expression is matched against all bytes at once. A row of `marks`, one for each place before,
between and behind the bytes, says which places have been reached; `reach` reads an expression from
every marked place and marks the places where it may end. An expression matches when the last place
is reached from the first.
-/

namespace EnvTemplates.Glob

/-- A set of bytes, given by ranges or by what lies outside of them. -/
structure ByteSet where
  negated : Bool
  /-- Ranges of bytes, ends included. -/
  ranges : List (UInt8 × UInt8)
  deriving DecidableEq, Repr

namespace ByteSet

/-- Whether a byte lies in a set. -/
def contains (s : ByteSet) (b : UInt8) : Bool :=
  s.negated != s.ranges.any fun r => r.1 ≤ b && b ≤ r.2

/-- The set of one byte. -/
def only (b : UInt8) : ByteSet := ⟨false, [(b, b)]⟩

/-- The set of all bytes. -/
def all : ByteSet := ⟨true, []⟩

end ByteSet

/-- A regular expression over bytes. -/
inductive Expression where
  | nothing
  | one (set : ByteSet)
  /-- Any number of bytes of a set. -/
  | many (set : ByteSet)
  | seq (first second : Expression)
  | choice (first second : Expression)
  deriving DecidableEq, Repr

namespace Expression

/-- One expression after the other, leaving out those that say nothing. -/
def append : Expression → Expression → Expression
  | .nothing, e => e
  | e, .nothing => e
  | e, f => .seq e f

/-- Expressions one after the other. -/
def sequence (es : List Expression) : Expression := es.foldr append .nothing

/-- The given bytes. -/
def bytes (bs : Bytes) : Expression := sequence (bs.map fun b => .one (.only b))

/-! ### Matching -/

/-- The places that are reached by reading one byte of a set. `arriving` tells that the first place
is one of them. -/
def reachOne (set : ByteSet) (arriving : Bool) : Bytes → (marks : List Bool) → List Bool
  | b :: bs, mark :: marks => arriving :: reachOne set (mark && set.contains b) bs marks
  | _, _ => [arriving]

/-- The places that are reached by reading any number of bytes of a set. `arriving` tells that the
first place is reached from the byte before it. -/
def reachMany (set : ByteSet) (arriving : Bool) : Bytes → (marks : List Bool) → List Bool
  | b :: bs, mark :: marks =>
    (arriving || mark) :: reachMany set ((arriving || mark) && set.contains b) bs marks
  | _, marks => [arriving || marks.contains true]

/-- The places that are reached by reading an expression from the marked places. -/
def reach (bs : Bytes) : Expression → (marks : List Bool) → List Bool
  | .nothing, marks => marks
  | .one set, marks => reachOne set false bs marks
  | .many set, marks => reachMany set false bs marks
  | .seq e f, marks => f.reach bs (e.reach bs marks)
  | .choice e f, marks => (e.reach bs marks).zipWith or (f.reach bs marks)

/-- Whether an expression matches the bytes as a whole. -/
def matchesAll (e : Expression) (bs : Bytes) : Bool :=
  (e.reach bs (true :: bs.map fun _ => false)).getLast? = some true

end Expression

end EnvTemplates.Glob
