import EnvTemplates.Text.Basic

/-!
# Placeholders

A placeholder is a key of ASCII capitals and underscores between an opening `$` with a brace and a
closing brace. Text is read in two steps,

    text ──tokenize──▶ tokens (List Token) ──placeholdersFrom──▶ placeholders

`tokenize` splits any text into tokens without leaving anything out, and a placeholder is an opening
token, a key and a closing brace in a row. Spans are counted in bytes of UTF-8.
-/

namespace EnvTemplates

structure Placeholder where
  key : Text
  /-- The byte offset of the `$`. -/
  start : Nat
  /-- The byte offset just after the closing brace. -/
  stop : Nat
  deriving DecidableEq, Repr

namespace Placeholder

/-! ### Tokens -/

def isKeyChar (c : Char) : Bool := ('A' ≤ c && c ≤ 'Z') || c == '_'

/-- The characters of plain text, which start no other token. -/
def isPlainChar (c : Char) : Bool := c != '$' && c != '}' && !isKeyChar c

/-- The tokens of a template. -/
inductive Token where
  /-- The two characters that open a placeholder. -/
  | opening
  | closing
  /-- A maximal run of key characters. -/
  | key (name : Text)
  /-- A dollar sign that opens nothing. -/
  | dollar
  /-- A maximal run of plain characters. -/
  | plain (run : Text)
  deriving DecidableEq, Repr

/-- The text that a token was read from. -/
def Token.lexeme : Token → Text
  | .opening => ['$', '{']
  | .closing => ['}']
  | .key name => name
  | .dollar => ['$']
  | .plain run => run

theorem length_dropWhile_le (p : Char → Bool) (t : Text) : (t.dropWhile p).length ≤ t.length :=
  (List.dropWhile_sublist p).length_le

/-- Split a text into tokens, each as long as possible. -/
def tokenize : Text → List Token
  | [] => []
  | '$' :: '{' :: rest => .opening :: tokenize rest
  | '$' :: rest => .dollar :: tokenize rest
  | '}' :: rest => .closing :: tokenize rest
  | c :: rest =>
    if isKeyChar c then
      .key (c :: rest.takeWhile isKeyChar) :: tokenize (rest.dropWhile isKeyChar)
    else
      .plain (c :: rest.takeWhile isPlainChar) :: tokenize (rest.dropWhile isPlainChar)
termination_by t => t.length
decreasing_by
  all_goals simp only [List.length_cons]
  all_goals first
    | omega
    | exact Nat.lt_succ_of_le (length_dropWhile_le _ _)

/-! ### Placeholders in a token stream -/

/-- The placeholders in a token stream that starts at the given byte offset. -/
def placeholdersFrom : (offset : Nat) → List Token → List Placeholder
  | _, [] => []
  | offset, token :: rest =>
    let next := offset + Text.byteLength token.lexeme
    match token, rest with
    | .opening, .key name :: .closing :: _ =>
      ⟨name, offset, next + Text.byteLength name + 1⟩ :: placeholdersFrom next rest
    | _, _ => placeholdersFrom next rest

def scan (text : Text) : List Placeholder := placeholdersFrom 0 (tokenize text)

/-- The distinct keys of the placeholders in a text, in the order they first appear. -/
def scanKeys (text : Text) : List Text := firstOccurrences ((scan text).map (·.key))

end Placeholder

end EnvTemplates
