import EnvTemplates.Text.Basic

/-!
# Similar texts

When a word is unknown, a known one that resembles it may be meant. Two words resemble each other as
far as they have characters in common that stand at nearby places and in the same order: with `m`
common characters, `t` pairs of which are out of order, the similarity of words of `a` and `b`
characters is the mean of `m / a`, `m / b` and `(m - t) / m`.
-/

namespace EnvTemplates.Text

/-- Take the first free occurrence of a character that lies in a window: not among the first `skip`
places, and among the `count` places after them. The result has the places with one less free. -/
def takeFree? (c : Char) : (skip count : Nat) → List (Char × Bool) → Option (List (Char × Bool))
  | _, _, [] => none
  | skip + 1, count, place :: places => (takeFree? c skip count places).map (place :: ·)
  | 0, 0, _ :: _ => none
  | 0, count + 1, place :: places =>
    if place = (c, true) then some ((c, false) :: places)
    else (takeFree? c 0 count places).map (place :: ·)

/-- The characters of a text from its place `at'` on that some other text has in common with it, and
the places of the other text, those that were taken no longer free. Places up to `range` apart are
nearby. -/
def common (range : Nat) : (at' : Nat) → Text → List (Char × Bool) → Text × List (Char × Bool)
  | _, [], places => ([], places)
  | at', c :: rest, places =>
    match takeFree? c (at' - range) (at' + range + 1 - (at' - range)) places with
    | some places =>
      let (more, places) := common range (at' + 1) rest places
      (c :: more, places)
    | none => common range (at' + 1) rest places

/-- Whether the similarity of two texts is more than seven tenths. -/
def resembles (s t : Text) : Bool :=
  let a := s.length
  let b := t.length
  let (matched, places) := common (max a b / 2 - 1) 0 s (t.map fun c => (c, true))
  let taken := (places.filter fun place => !place.2).map (·.1)
  let m := matched.length
  let swapped := ((matched.zip taken).countP fun pair => pair.1 ≠ pair.2) / 2
  m ≠ 0 && 21 * (a * b * m) < 10 * (m * b * m + m * a * m + (m - swapped) * a * b)

end EnvTemplates.Text
