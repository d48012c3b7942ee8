import EnvTemplates.Text.Basic
import EnvTemplates.Text.CaseData

/-!
# Full case mappings

`lower` and `upper` are the full, locale-independent mappings of Unicode: a character may become
several, and the capital sigma becomes `ς` at the end of a word and `σ` elsewhere.
-/

namespace EnvTemplates.Text

open CaseData

/-- The characters that a code point is mapped to, by the expansions first and the runs second. -/
def mapCase (expansions : List (Nat × List Nat)) (runs : List Run) (c : Char) : Text :=
  match expansions.lookup c.toNat with
  | some expansion => expansion.map Char.ofNat
  | none =>
    match mapped? runs c.toNat with
    | some n => [Char.ofNat n]
    | none => [c]

def isCased (c : Char) : Bool := within casedRanges c.toNat

def isCaseIgnorable (c : Char) : Bool := within caseIgnorableRanges c.toNat

/-- Whether a cased character comes first, once the case-ignorable ones are passed over. -/
def meetsCased (t : Text) : Bool :=
  match t.dropWhile isCaseIgnorable with
  | [] => false
  | c :: _ => isCased c

/-- The lowercase of a capital sigma between the characters before it, nearest first, and those
after it. -/
def lowerSigma (before after : Text) : Char :=
  if meetsCased before && !meetsCased after then 'ς' else 'σ'

/-- The lowercase of a text that stands after the characters of `before`, nearest first. -/
def lowerAfter : (before : Text) → Text → Text
  | _, [] => []
  | before, c :: after =>
    let here := if c = 'Σ' then [lowerSigma before after] else mapCase lowerExpansions lowerRuns c
    here ++ lowerAfter (c :: before) after

def lower (t : Text) : Text := lowerAfter [] t

def upper (t : Text) : Text := t.flatMap (mapCase upperExpansions upperRuns)

end EnvTemplates.Text
