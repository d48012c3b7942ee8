/-!
# Text and bytes

Text is a list of characters, file contents and file names are lists of bytes. This module holds
the operations on them that the rest of the library is built from: cutting a list at separators,
searching for an occurrence, stripping one end, and trimming.

The blank characters are those with the Unicode property `White_Space`.
-/

namespace EnvTemplates

/-- Text, as the list of its characters. -/
abbrev Text := List Char

/-- The contents or the name of a file, as the list of its bytes. -/
abbrev Bytes := List UInt8

/-! ### Cutting and searching lists -/

/-- Cut a list at every element that satisfies `sep`. The separators are dropped, so a list with
`n` of them gives `n + 1` fields, some of which may be empty. -/
def fields {α : Type} (sep : α → Bool) : List α → List (List α)
  | [] => [[]]
  | a :: rest =>
    if sep a then [] :: fields sep rest
    else match fields sep rest with
      | [] => [[a]]
      | field :: more => (a :: field) :: more

/-- What is left of `l` after `start`, if `l` starts with it. -/
def dropStart? {α : Type} [DecidableEq α] : (start l : List α) → Option (List α)
  | [], l => some l
  | _ :: _, [] => none
  | a :: start, b :: l => if a = b then dropStart? start l else none

/-- What is left of `l` before `ending`, if `l` ends with it. -/
def dropEnd? {α : Type} [DecidableEq α] (ending l : List α) : Option (List α) :=
  (dropStart? ending.reverse l.reverse).map List.reverse

/-- Whether `part` occurs in a list as a contiguous block. -/
def occursIn {α : Type} [DecidableEq α] (part : List α) : List α → Bool
  | [] => part.isEmpty
  | a :: rest => part.isPrefixOf (a :: rest) || occursIn part rest

/-- The elements without their repetitions: of each, only the first occurrence is kept. -/
def firstOccurrences {α : Type} [DecidableEq α] (l : List α) : List α :=
  l.foldl (fun seen a => if a ∈ seen then seen else seen ++ [a]) []

namespace Text

/-! ### Blanks -/

/-- The characters with the Unicode property `White_Space`. -/
def isBlank (c : Char) : Bool :=
  let n := c.toNat
  (9 ≤ n && n ≤ 13) || n == 0x20 || n == 0x85 || n == 0xA0 || n == 0x1680 ||
  (0x2000 ≤ n && n ≤ 0x200A) || n == 0x2028 || n == 0x2029 || n == 0x202F || n == 0x205F ||
  n == 0x3000

def trimStart (t : Text) : Text := t.dropWhile isBlank

def trimEnd (t : Text) : Text := (t.reverse.dropWhile isBlank).reverse

def trim (t : Text) : Text := trimEnd (trimStart t)

/-- The maximal runs of characters that are not blank. -/
def words (t : Text) : List Text := (fields isBlank t).filter (· ≠ [])

def lines (t : Text) : List Text := fields (· == '\n') t

/-! ### Measures -/

/-- The number of bytes that the text takes in UTF-8. -/
def byteLength (t : Text) : Nat := (t.map Char.utf8Size).foldr (· + ·) 0

def ofNat (n : Nat) : Text := n.repr.toList

end Text

end EnvTemplates
