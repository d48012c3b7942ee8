import EnvTemplates.Toml.Scalar
import EnvTemplates.Toml.Value

/-!
# Reading TOML

Reads a document of TOML 1.1. Each reader takes what it reads from the start of a text and gives it
with the rest, or `none` where the text is not TOML. Nested values are read up to a fixed depth, and
the loops over characters and items take a bound that is larger than the text is long.
-/

namespace EnvTemplates.Toml

/-- A reader: the value read and the rest of the text. -/
abbrev Reader (α : Type) := Text → Option (α × Text)

/-! ### Blanks and comments -/

def isSpace (c : Char) : Bool := c == ' ' || c == '\t'

def skipSpaces (t : Text) : Text := t.dropWhile isSpace

/-- A character that may stand in a comment or in a string: any but the control characters, of which
the tab is the only one allowed. -/
def isVisible (c : Char) : Bool := c == '\t' || (0x20 ≤ c.toNat && c.toNat ≠ 0x7F)

def newline? : Text → Option Text
  | '\n' :: rest => some rest
  | '\r' :: '\n' :: rest => some rest
  | _ => none

/-- Take blanks and a comment away, up to the line break. -/
def skipComment (t : Text) : Text :=
  match skipSpaces t with
  | '#' :: rest => rest.dropWhile isVisible
  | rest => rest

/-- Take blanks, comments and line breaks away. `inComment` tells that a comment has begun on the
line. -/
def skipLines (inComment : Bool) : Text → Text
  | [] => []
  | '\n' :: rest => skipLines false rest
  | '\r' :: '\n' :: rest => skipLines false rest
  | c :: rest =>
    if inComment then if isVisible c then skipLines true rest else c :: rest
    else if isSpace c then skipLines false rest
    else if c = '#' then skipLines true rest
    else c :: rest

/-! ### Strings -/

/-- The character with the code point that some hexadecimal digits give, if there is one. -/
def ofHex? (digits : Text) : Option Char :=
  if digits.all isHexDigit then
    let value := fun c : Char =>
      if c.isDigit then c.toNat - '0'.toNat else c.toLower.toNat - 'a'.toNat + 10
    let n := digits.foldl (fun n c => 16 * n + value c) 0
    if h : n.isValidChar then some (Char.ofNatAux n h) else none
  else none

def hexEscape (length : Nat) : Reader Char := fun t =>
  if (t.take length).length = length then (ofHex? (t.take length)).map fun c => (c, t.drop length)
  else none

/-- The character of an escape, behind the backslash. -/
def escape : Reader Char
  | 'b' :: rest => some ('\x08', rest)
  | 't' :: rest => some ('\t', rest)
  | 'n' :: rest => some ('\n', rest)
  | 'f' :: rest => some ('\x0c', rest)
  | 'r' :: rest => some ('\r', rest)
  | 'e' :: rest => some ('\x1b', rest)
  | '"' :: rest => some ('"', rest)
  | '\\' :: rest => some ('\\', rest)
  | 'x' :: rest => hexEscape 2 rest
  | 'u' :: rest => hexEscape 4 rest
  | 'U' :: rest => hexEscape 8 rest
  | _ => none

/-- A string on one line, behind its opening quote. `escapes` tells whether backslashes escape. -/
def lineString (quote : Char) (escapes : Bool) : (bound : Nat) → Reader Text
  | 0, _ => none
  | _ + 1, [] => none
  | bound + 1, c :: rest =>
    if c = quote then some ([], rest)
    else if c = '\\' ∧ escapes then do
      let (e, rest) ← escape rest
      let (more, rest) ← lineString quote escapes bound rest
      return (e :: more, rest)
    else if isVisible c then do
      let (more, rest) ← lineString quote escapes bound rest
      return (c :: more, rest)
    else none

/-- Whether a backslash stands at the end of a line: only blanks come between it and the line
break. -/
def endsLine (t : Text) : Bool := (newline? (skipSpaces t)).isSome

/-- A text without the blanks and line breaks at its start. -/
def skipBlankLines : Text → Text
  | [] => []
  | '\r' :: '\n' :: rest => skipBlankLines rest
  | c :: rest => if isSpace c || c == '\n' then skipBlankLines rest else c :: rest

/-- A string on several lines, behind its opening quotes. Three quotes end it, and up to two more
right before them belong to it. Line breaks are kept as they are written. A backslash at the end of
a line takes the blanks and line breaks after it away. -/
def blockString (quote : Char) (escapes : Bool) : (bound : Nat) → Reader Text
  | 0, _ => none
  | _ + 1, [] => none
  | bound + 1, c :: rest =>
    if c = quote ∧ (rest.take 2) = [quote, quote] then
      let extra := ((rest.drop 2).takeWhile (· == quote)).length
      if extra ≤ 2 then some (List.replicate extra quote, rest.drop (2 + extra)) else none
    else if c = '\\' ∧ escapes then
      if endsLine rest then blockString quote escapes bound (skipBlankLines rest)
      else do
        let (e, rest) ← escape rest
        let (more, rest) ← blockString quote escapes bound rest
        return (e :: more, rest)
    else if isVisible c ∨ c = '\n' ∨ (c = '\r' ∧ rest.head? = some '\n') then do
      let (more, rest) ← blockString quote escapes bound rest
      return (c :: more, rest)
    else none

/-- A string, behind its first quote. -/
def string (bound : Nat) (quote : Char) : Reader Text := fun t =>
  let escapes := quote == '"'
  if t.take 2 = [quote, quote] then
    let block := t.drop 2
    blockString quote escapes bound ((newline? block).getD block)
  else lineString quote escapes bound t

/-! ### Keys -/

/-- A character of a key without quotes. -/
def isBareChar (c : Char) : Bool := c.isAlphanum || c == '_' || c == '-'

def keyPart (bound : Nat) : Reader Text
  | '"' :: rest => lineString '"' true bound rest
  | '\'' :: rest => lineString '\'' false bound rest
  | t =>
    let bare := t.takeWhile isBareChar
    if bare = [] then none else some (bare, t.drop bare.length)

/-- The parts of a key with dots between them. The result has the parts before the last one, and the
last one. -/
def dottedKey : (bound : Nat) → Reader (List Text × Text)
  | 0, _ => none
  | bound + 1, t => do
    let (part, rest) ← keyPart (bound + 1) (skipSpaces t)
    match skipSpaces rest with
    | '.' :: rest => do
      let ((parts, last), rest) ← dottedKey bound rest
      return ((part :: parts, last), rest)
    | rest => return (([], part), rest)

/-- The largest number of parts before the last one in a key. -/
def maxPath : Nat := 80

def key (bound : Nat) : Reader (List Text × Text) := fun t => do
  let ((path, last), rest) ← dottedKey bound t
  if path.length ≤ maxPath then some ((path, last), rest) else none

/-! ### Values -/

/-- The largest depth of arrays and tables inside of each other. -/
def maxDepth : Nat := 80

/-- A character that no number, truth value, date or time has. -/
def endsScalar (c : Char) : Bool :=
  isSpace c || "=,[]\x7b\x7d#\r\n".toList.contains c

/-- A number, a truth value, a date or a time. A date and a time may have a space between them. -/
def scalar : Reader Value := fun t =>
  let run := t.takeWhile (!endsScalar ·)
  let rest := t.drop run.length
  let (run, rest) :=
    match rest with
    | ' ' :: more =>
      if isDate run && more.head?.any Char.isDigit then
        let time := more.takeWhile (!endsScalar ·)
        (run ++ ' ' :: time, more.drop time.length)
      else (run, rest)
    | _ => (run, rest)
  if isScalar run then some (.scalar, rest) else none

/-- The values of an array, behind its opening bracket. -/
def items (value : Reader Value) : (bound : Nat) → Reader (List Value)
  | 0, _ => none
  | bound + 1, t =>
    match skipLines false t with
    | ']' :: rest => some ([], rest)
    | t => do
      let (v, rest) ← value t
      match skipLines false rest with
      | ',' :: rest => do
        let (more, rest) ← items value bound rest
        return (v :: more, rest)
      | ']' :: rest => return ([v], rest)
      | _ => none

/-- The keys and values of an inline table, behind its opening brace, added to those before. A key
and its value may stand on lines of their own. -/
def pairs (value : Reader Value) : (bound : Nat) → Entries → Reader Entries
  | 0, _, _ => none
  | bound + 1, es, t =>
    match skipLines false t with
    | '}' :: rest => some (es, rest)
    | t => do
      let ((path, last), rest) ← key (bound + 1) t
      match skipLines false rest with
      | '=' :: rest => do
        let (v, rest) ← value (skipLines false rest)
        let es ← Entries.assign path last v .inline es
        match skipLines false rest with
        | ',' :: rest => pairs value bound es rest
        | '}' :: rest => return (es, rest)
        | _ => none
      | _ => none

/-- A value, with arrays and tables up to the given depth. -/
def value (bound : Nat) : (depth : Nat) → Reader Value
  | depth, t =>
    match t with
    | '"' :: rest => (string bound '"' rest).map fun (s, rest) => (.text s, rest)
    | '\'' :: rest => (string bound '\'' rest).map fun (s, rest) => (.text s, rest)
    | '[' :: rest =>
      match depth with
      | 0 => none
      | depth + 1 =>
        (items (value bound depth) bound rest).map fun (vs, rest) => (.array vs, rest)
    | '{' :: rest =>
      match depth with
      | 0 => none
      | depth + 1 =>
        (pairs (value bound depth) bound [] rest).map fun (es, rest) => (.table .inline es, rest)
    | t => scalar t

/-! ### Documents -/

/-- Where the keys of a document go: the path of the last header. -/
abbrev Position := List Text

/-- The path and the last part of a header, behind its opening brackets, up to the closing ones. -/
def header (bound : Nat) (closing : Text) : Reader (List Text × Text) := fun t => do
  let (name, rest) ← key bound t
  (dropStart? closing (skipSpaces rest)).map fun rest => (name, rest)

/-- A header or a key with its value, added to the document. -/
def statement (bound : Nat) (position : Position) (es : Entries) : Reader (Position × Entries)
  | '[' :: '[' :: rest => do
    let ((path, last), rest) ← header bound [']', ']'] rest
    return ((path ++ [last], ← es.openElement path last), rest)
  | '[' :: rest => do
    let ((path, last), rest) ← header bound [']'] rest
    return ((path ++ [last], ← es.openTable path last), rest)
  | t => do
    let ((path, last), rest) ← key bound t
    match skipSpaces rest with
    | '=' :: rest => do
      let (v, rest) ← value bound maxDepth (skipSpaces rest)
      let es ← es.update false (Entries.assign path last v) position .header
      return ((position, es), rest)
    | _ => none

/-- The statements of a document, each on a line of its own, added to those before. -/
def statements : (bound : Nat) → Position → Entries → Text → Option Entries
  | 0, _, _, _ => none
  | bound + 1, position, es, t =>
    match skipLines false t with
    | [] => some es
    | t => do
      let ((position, es), rest) ← statement (bound + 1) position es t
      match skipComment rest with
      | [] => return es
      | rest => statements bound position es (← newline? rest)

/-- The top table of a document. A byte order mark at the start does not count. -/
def parse? (document : Text) : Option Entries :=
  let t := (dropStart? ['\uFEFF'] document).getD document
  statements (t.length + 1) [] [] t

end EnvTemplates.Toml
