import EnvTemplates.Error
import EnvTemplates.Glob.Expression

/-!
# Glob patterns

A glob pattern describes paths:

| pattern      | matches                                                    |
|--------------|------------------------------------------------------------|
| `?`          | one byte other than a slash                                |
| `*`          | any number of bytes other than slashes                     |
| `[a-z]`      | one byte of the class; `!` or `^` in front negates it       |
| braces       | one of the patterns between them, separated by commas      |
| `\`          | the next character itself                                  |
| `**`         | any number of directories, where it stands between slashes |

A class that is never closed is read as a plain bracket, and so are all brackets after it.

    spelling (Text) ──lex──▶ items (List Item) ──read──▶ tokens (List Token) ──▶ Pattern

A pattern knows how deep its elements stand inside of each other, because there is a limit to that.
-/

namespace EnvTemplates.Glob

/-! ### Items -/

/-- The items of a pattern, as they are spelled. -/
inductive Item where
  /-- A character that stands for itself. -/
  | plain (c : Char)
  | escaped (c : Char)
  | question
  | star
  | range (negated : Bool) (ranges : List (Char × Char))
  | openBrace
  | closeBrace
  /-- The place where the pattern is malformed. -/
  | malformed (reason : GlobError)
  deriving DecidableEq, Repr

/-- Read the ranges of a class up to its closing bracket. `first` tells that nothing was read yet,
`extending` that the last range waits for its upper end; `ranges` holds the ranges so far, the
newest first, and `count` the number of characters read. The result has the ranges and the number
of characters that the class takes, and is `none` for a class that is never closed. -/
def readRanges (first extending : Bool) (ranges : List (Char × Char)) (count : Nat) :
    Text → Except GlobError (Option (List (Char × Char) × Nat))
  | [] => .ok none
  | c :: rest =>
    if c = ']' ∧ !first then
      let all := if extending then ('-', '-') :: ranges else ranges
      .ok (some (all.reverse, count + 1))
    else if c = '-' ∧ !first ∧ !extending then readRanges false true ranges (count + 1) rest
    else match extending, ranges with
      -- The range that waits for its upper end was entered with the lower one twice.
      | true, (low, _) :: more =>
        if c < low then .error (.invalidRange low c)
        else readRanges false false ((low, c) :: more) (count + 1) rest
      | _, _ => readRanges false false ((c, c) :: ranges) (count + 1) rest

/-- Read a class behind its opening bracket. The result has the class and the number of characters
that it takes. -/
def readClass (text : Text) : Except GlobError (Option (Item × Nat)) :=
  let negated := text.head? = some '!' || text.head? = some '^'
  let skipped := if negated then 1 else 0
  (readRanges true false [] skipped (text.drop skipped)).map fun result =>
    result.map fun (ranges, count) => (.range negated ranges, count)

/-- Split a pattern into items. `classes` tells whether brackets open classes, and `skip` counts the
characters that belong to the last item. -/
def lexFrom (classes : Bool) : (skip : Nat) → Text → List Item
  | _, [] => []
  | skip + 1, _ :: rest => lexFrom classes skip rest
  | 0, c :: rest =>
    match c with
    | '?' => .question :: lexFrom classes 0 rest
    | '*' => .star :: lexFrom classes 0 rest
    | '{' => .openBrace :: lexFrom classes 0 rest
    | '}' => .closeBrace :: lexFrom classes 0 rest
    | '\\' =>
      match rest with
      | [] => [.malformed .danglingEscape]
      | e :: _ => .escaped e :: lexFrom classes 1 rest
    | '[' =>
      if classes then
        match readClass rest with
        | .error reason => [.malformed reason]
        | .ok (some (item, count)) => item :: lexFrom classes count rest
        | .ok none => .plain '[' :: lexFrom false 0 rest
      else .plain '[' :: lexFrom classes 0 rest
    | c => .plain c :: lexFrom classes 0 rest

/-- Split a pattern into items. -/
def lex (pattern : Text) : List Item := lexFrom true 0 pattern

/-! ### Patterns -/

/-- A pattern or a part of one: what it matches, and how it is built of elements. A byte, a set of
bytes, a repetition and a group are elements. -/
structure Pattern where
  expression : Expression := .nothing
  /-- The number of elements side by side. -/
  width : Nat := 0
  /-- How many elements stand inside of each other. Single bytes do not count. -/
  depth : Nat := 0
  deriving DecidableEq, Repr

namespace Pattern

/-- Patterns one after the other. -/
def sequence (ps : List Pattern) : Pattern where
  expression := .sequence (ps.map expression)
  width := (ps.map width).foldr (· + ·) 0
  depth := (ps.map depth).foldl max 0

/-- The depth of a pattern within another one, where several elements in a row count as one more. -/
def innerDepth (p : Pattern) : Nat := if p.width < 2 then p.depth else p.depth + 1

/-- One of several patterns. Those that match nothing but the empty text do not count; if there is
no other, the group is left out. -/
def oneOf (ps : List Pattern) : Pattern :=
  match ps.filter (·.expression ≠ .nothing) with
  | [] => {}
  | p :: more =>
    { expression := (more.map expression).foldl .choice p.expression
      width := 1
      depth := (more.map innerDepth).foldl max p.innerDepth + (if more = [] then 1 else 2) }

/-- The largest depth of a pattern, with one for the pattern itself. -/
def maxDepth : Nat := 250

/-- Whether the elements of a pattern stand too deep inside of each other. -/
def isTooDeep (p : Pattern) : Bool := maxDepth < p.depth + 1

end Pattern

/-! ### Tokens -/

/-- The tokens of a pattern, each with a meaning of its own. -/
inductive Token where
  | literal (c : Char)
  /-- One byte other than a slash. -/
  | any
  /-- Any number of bytes other than slashes. -/
  | zeroOrMore
  /-- `**` at the start: nothing, or any directories. -/
  | anyDepthFirst
  /-- `**` at the end: everything below. -/
  | anyDepthLast
  /-- `**` between slashes: a slash, or any directories between two slashes. -/
  | anyDepthBetween
  | oneOf (set : ByteSet)
  | group (alternatives : Pattern)
  deriving DecidableEq, Repr

/-- The ranges of bytes for a range of characters. A class matches single bytes: the bytes of a
character beyond ASCII count one by one, and between two characters the range runs from the last
byte of the one to the first byte of the other. -/
def byteRanges (range : Char × Char) : List (UInt8 × UInt8) :=
  let low := String.utf8EncodeChar range.1
  let high := String.utf8EncodeChar range.2
  let single := fun b : UInt8 => (b, b)
  if range.1 = range.2 then low.map single
  else
    low.dropLast.map single ++
      ((low.getLast?.bind fun l => high.head?.map fun h => (l, h)).toList ++
        high.tail.map single)

/-- The slash. -/
def slash : Expression := .one (.only 0x2F)

/-- The bytes other than the slash. -/
def notSlash : ByteSet := ⟨true, [(0x2F, 0x2F)]⟩

/-- The pattern of a token. -/
def Token.pattern : Token → Pattern
  | .literal c => ⟨.bytes (String.utf8EncodeChar c), c.utf8Size, 0⟩
  | .any => ⟨.one notSlash, 1, 1⟩
  | .zeroOrMore => ⟨.many notSlash, 1, 2⟩
  | .anyDepthFirst => ⟨.choice (.choice .nothing slash) (.seq (.many .all) slash), 1, 4⟩
  | .anyDepthLast => ⟨.seq slash (.many .all), 2, 1⟩
  | .anyDepthBetween => ⟨.choice slash (.seq slash (.seq (.many .all) slash)), 1, 4⟩
  | .oneOf set => ⟨.one set, 1, if set.ranges.length < 2 then 1 else 2⟩
  | .group alternatives => alternatives

/-- The pattern of a branch. -/
def branch (tokens : List Token) : Pattern := .sequence (tokens.map Token.pattern)

/-! ### Reading tokens -/

/-- A group whose closing brace has not been read: the tokens before it, the newest first, and the
branches that are complete, the newest first. -/
structure OpenGroup where
  before : List Token
  complete : List Pattern
  deriving DecidableEq, Repr

/-- What two stars in a row stand for, and whether they take the slash after them. `inGroup` tells
whether a group is open, `current` holds the tokens of the branch, the newest first, `before` is the
character before the stars and `rest` what comes after them. The first component is the branch with
the stars. -/
def readStars (inGroup : Bool) (current : List Token) (before : Option Char) (rest : List Item) :
    List Token × Bool :=
  let apart := (.zeroOrMore :: .zeroOrMore :: current, false)
  let takesSlash := rest.head? = some (.plain '/')
  let endsBranch := rest = [] ∨
    inGroup ∧ (rest.head? = some (.plain ',') ∨ rest.head? = some .closeBrace)
  let bounded := before = some '/' ∨ inGroup ∧ (before = some ',' ∨ before = some '{')
  match current with
  | [] => if takesSlash ∨ rest = [] then ([.anyDepthFirst], takesSlash) else apart
  | last :: earlier =>
    if bounded ∧ (endsBranch ∨ takesSlash) then
      let token := match last with
        | .anyDepthFirst => .anyDepthFirst
        | .anyDepthLast => .anyDepthLast
        | _ => if takesSlash then .anyDepthBetween else .anyDepthLast
      (token :: earlier, takesSlash)
    else apart

/-- Read the tokens of a pattern. `groups` holds the open groups, the innermost first, `current` the
tokens of the branch that is being read, the newest first, and `before` the last character read.
`skip` counts the items that belong to the last token. -/
def readFrom : (groups : List OpenGroup) → (current : List Token) → (before : Option Char) →
    (skip : Nat) → List Item → Except GlobError (List Token)
  | groups, current, _, _, [] =>
    if groups = [] then .ok current.reverse else .error .unclosedGroup
  | groups, current, before, skip + 1, _ :: rest => readFrom groups current before skip rest
  | groups, current, before, 0, item :: rest =>
    match item, groups with
    | .malformed reason, _ => .error reason
    | .question, _ => readFrom groups (.any :: current) (some '?') 0 rest
    | .range negated ranges, _ =>
      readFrom groups (.oneOf ⟨negated, ranges.flatMap byteRanges⟩ :: current) (some ']') 0 rest
    | .escaped c, _ => readFrom groups (.literal c :: current) (some c) 0 rest
    | .openBrace, _ => readFrom (⟨current, []⟩ :: groups) [] (some '{') 0 rest
    | .closeBrace, [] => .error .unopenedGroup
    | .closeBrace, g :: outer =>
      let alternatives := Pattern.oneOf (branch current.reverse :: g.complete).reverse
      readFrom outer (.group alternatives :: g.before) (some '}') 0 rest
    | .plain c, [] => readFrom groups (.literal c :: current) (some c) 0 rest
    | .plain c, g :: outer =>
      if c = ',' then
        readFrom (⟨g.before, branch current.reverse :: g.complete⟩ :: outer) [] (some ',') 0 rest
      else readFrom groups (.literal c :: current) (some c) 0 rest
    | .star, _ =>
      match rest with
      | .star :: after =>
        -- `skip` passes over the second star, and over the slash where the stars take it.
        let (tokens, takesSlash) := readStars (groups ≠ []) current before after
        if takesSlash then readFrom groups tokens (some '/') 2 rest
        else readFrom groups tokens (some '*') 1 rest
      | _ => readFrom groups (.zeroOrMore :: current) (some '*') 0 rest

/-- Read a pattern. The one that is spelled `**` alone matches everything. -/
def Pattern.parse (spelling : Text) : Except GlobError Pattern :=
  (readFrom [] [] none 0 (lex spelling)).map fun tokens =>
    if tokens = [.anyDepthFirst] then ⟨.many .all, 1, 1⟩ else branch tokens

end EnvTemplates.Glob
