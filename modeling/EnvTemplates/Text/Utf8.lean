import EnvTemplates.Text.Basic

/-!
# UTF-8

`encode` writes text as bytes and `decode?` reads it back, refusing bytes that are not UTF-8.
`decodeLossy` never refuses: each maximal ill-formed piece becomes one replacement character, which
is how names that are not text are displayed.
-/

namespace EnvTemplates.Utf8

def encode (t : Text) : Bytes := t.flatMap String.utf8EncodeChar

/-- The text that the bytes encode, if they are well-formed UTF-8. -/
def decode? (bytes : Bytes) : Option Text :=
  (ByteArray.mk bytes.toArray).utf8Decode?.map Array.toList

def replacement : Char := '\uFFFD'

/-! ### Lossy decoding -/

/-- The ranges that the bytes after a first byte must lie in, or `none` if no character starts with
that byte. -/
def followers (first : UInt8) : Option (List (UInt8 × UInt8)) :=
  let tail : UInt8 × UInt8 := (0x80, 0xBF)
  if first ≤ 0x7F then some []
  else if 0xC2 ≤ first && first ≤ 0xDF then some [tail]
  else if first == 0xE0 then some [(0xA0, 0xBF), tail]
  else if first == 0xED then some [(0x80, 0x9F), tail]
  else if 0xE1 ≤ first && first ≤ 0xEF then some [tail, tail]
  else if first == 0xF0 then some [(0x90, 0xBF), tail, tail]
  else if 0xF1 ≤ first && first ≤ 0xF3 then some [tail, tail, tail]
  else if first == 0xF4 then some [(0x80, 0x8F), tail, tail]
  else none

/-- How many of the bytes lie in the ranges, up to the first that does not. -/
def agreeing : List (UInt8 × UInt8) → Bytes → Nat
  | (low, high) :: ranges, b :: bytes =>
    if low ≤ b && b ≤ high then agreeing ranges bytes + 1 else 0
  | _, _ => 0

/-- Decode with replacement characters. `skip` counts the bytes of the current character that are
still to be passed over. -/
def decodeLossyFrom : (skip : Nat) → Bytes → Text
  | _, [] => []
  | skip + 1, _ :: bytes => decodeLossyFrom skip bytes
  | 0, first :: bytes =>
    match followers first with
    | none => replacement :: decodeLossyFrom 0 bytes
    | some ranges =>
      let count := agreeing ranges bytes
      let shown := if count = ranges.length then decode? (first :: bytes.take count) else none
      shown.getD [replacement] ++ decodeLossyFrom count bytes

/-- The text that the bytes encode, with a replacement character for each maximal ill-formed
piece. -/
def decodeLossy (bytes : Bytes) : Text :=
  (decode? bytes).getD (decodeLossyFrom 0 bytes)

end EnvTemplates.Utf8
