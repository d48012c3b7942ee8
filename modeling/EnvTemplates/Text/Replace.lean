import EnvTemplates.Text.Basic

/-!
# Replacing every occurrence of a token

`pieces` cuts a text at the leftmost, non-overlapping occurrences of a token: the pieces are what
stands before, between and after them. Replacing is then joining the pieces with another text.

Occurrences are found up to a folding of characters, so that the same cut serves exact replacement
(`replaceToken`) and replacement up to ASCII case (`replaceIgnoringCase`); the pieces always keep
the characters of the text itself.
-/

namespace EnvTemplates.Text

/-- Whether a text starts with another one, up to the folding of characters. -/
def startsWith (fold : Char → Char) : (start text : Text) → Bool
  | [], _ => true
  | _ :: _, [] => false
  | a :: start, b :: text => fold a == fold b && startsWith fold start text

/-- Cut a text at the occurrences of `token`, leftmost first. `skip` counts the characters of the
last occurrence that are still to be passed over. -/
def cut (fold : Char → Char) (token : Text) : (skip : Nat) → Text → List Text
  | _, [] => [[]]
  | skip + 1, _ :: rest => cut fold token skip rest
  | 0, c :: rest =>
    if startsWith fold token (c :: rest) then
      [] :: cut fold token (token.length - 1) rest
    else match cut fold token 0 rest with
      | [] => [[c]]
      | piece :: more => (c :: piece) :: more

/-- The pieces of a text before, between and after the leftmost, non-overlapping occurrences of
`token`. An empty token occurs nowhere. -/
def pieces (fold : Char → Char) (token text : Text) : List Text :=
  if token = [] then [text] else cut fold token 0 text

/-- A text with its replacements, and how many there were. -/
structure Replaced where
  text : Text
  /-- The number of occurrences that were replaced. -/
  count : Nat
  deriving DecidableEq, Repr

/-- Replace every non-overlapping occurrence of `token` by `value` in one pass from left to right,
counting them. -/
def replaceToken (token value text : Text) : Replaced :=
  let cuts := pieces id token text
  ⟨value.intercalate cuts, cuts.length - 1⟩

/-- Replace every non-overlapping occurrence of `needle` up to ASCII case. What stands between the
occurrences keeps its own case. -/
def replaceIgnoringCase (haystack needle value : Text) : Text :=
  value.intercalate (pieces Char.toLower needle haystack)

end EnvTemplates.Text
