import EnvTemplates.Text.Basic

/-!
# TOML scalars

Which runs of characters are numbers, truth values, dates and times. Only whether a run is one of
them matters here, not which value it has.

Numbers are checked only as far as their kind has to be known. An integer that starts with a decimal
digit and has an underscore behind its first digits is one of them as soon as all of its underscores
stand between digits, whatever else comes behind them.
-/

namespace EnvTemplates.Toml

/-! ### Digits -/

def isHexDigit (c : Char) : Bool :=
  c.isDigit || ('a' ≤ c && c ≤ 'f') || ('A' ≤ c && c ≤ 'F')

def isOctalDigit (c : Char) : Bool := '0' ≤ c && c ≤ '7'

def isBinaryDigit (c : Char) : Bool := c == '0' || c == '1'

/-- Whether every underscore stands between two digits. `after` tells that a digit comes before the
text. -/
def isGrouped (isDigit : Char → Bool) (after : Bool) : Text → Bool
  | [] => true
  | c :: rest =>
    (c != '_' || after && rest.head?.any isDigit) && isGrouped isDigit (isDigit c) rest

/-- Whether no zero stands in front of other digits. -/
def hasNoZeroInFront (t : Text) : Bool := t.head? ≠ some '0' || t = ['0']

def withoutSign : Text → Text
  | '+' :: t => t
  | '-' :: t => t
  | t => t

/-! ### Numbers -/

/-- What is left behind the digits and underscores at the start of a text, if there is a digit among
them. -/
def afterDigits? (t : Text) : Option Text :=
  let digits := t.takeWhile fun c => c.isDigit || c == '_'
  if digits.any Char.isDigit then some (t.drop digits.length) else none

/-- What is left behind a fraction, if a text starts with one. -/
def afterFraction? : Text → Option Text
  | '.' :: t => afterDigits? t
  | t => some t

/-- What is left behind an exponent, if a text starts with one. -/
def afterExponent? : Text → Option Text
  | 'e' :: t => afterDigits? (withoutSign t)
  | 'E' :: t => afterDigits? (withoutSign t)
  | t => some t

/-- A number with a fraction or an exponent, without its sign. -/
def isFloat (t : Text) : Bool :=
  isGrouped Char.isDigit false t &&
    hasNoZeroInFront (t.takeWhile fun c => c.isDigit || c == '_') &&
    ((afterDigits? t).bind afterFraction?).bind afterExponent? = some []

/-- The digits of an integer behind the letter of its base. -/
def isInBase (isDigit : Char → Bool) (t : Text) : Bool :=
  t.all (fun c => isDigit c || c == '_') && isGrouped isHexDigit false t

/-! ### Dates and times -/

/-- The number that a run of digits of the given length stands for. -/
def digits? (length : Nat) (t : Text) : Option Nat :=
  if t.length = length && t.all Char.isDigit then
    some (t.foldl (fun n c => 10 * n + (c.toNat - '0'.toNat)) 0)
  else none

def daysIn (year month : Nat) : Nat :=
  if month = 2 then
    if year % 4 = 0 && (year % 100 ≠ 0 || year % 400 = 0) then 29 else 28
  else if month = 4 || month = 6 || month = 9 || month = 11 then 30
  else 31

def isDate (t : Text) : Bool :=
  match (fields (· == '-') t) with
  | [year, month, day] =>
    match digits? 4 year, digits? 2 month, digits? 2 day with
    | some y, some m, some d => 1 ≤ m && m ≤ 12 && 1 ≤ d && d ≤ daysIn y m
    | _, _, _ => false
  | _ => false

def isSeconds (t : Text) : Bool :=
  let whole := t.takeWhile (· != '.')
  let fraction := t.dropWhile (· != '.')
  ((digits? 2 whole).any (· ≤ 60)) &&
    (fraction = [] || (fraction.drop 1 ≠ [] && (fraction.drop 1).all Char.isDigit))

/-- A time of day. The seconds may be left out. -/
def isTime (t : Text) : Bool :=
  match fields (· == ':') t with
  | [hour, minute] => (digits? 2 hour).any (· ≤ 23) && (digits? 2 minute).any (· ≤ 59)
  | [hour, minute, second] =>
    (digits? 2 hour).any (· ≤ 23) && (digits? 2 minute).any (· ≤ 59) && isSeconds second
  | _ => false

def isOffset (t : Text) : Bool :=
  match t with
  | [c] => c == 'Z' || c == 'z'
  | sign :: rest =>
    (sign == '+' || sign == '-') &&
      match fields (· == ':') rest with
      | [hour, minute] => (digits? 2 hour).any (· ≤ 23) && (digits? 2 minute).any (· ≤ 59)
      | _ => false
  | [] => false

/-- A time of day with or without its distance from universal time. -/
def isZonedTime (t : Text) : Bool :=
  let isSign := fun c => c == 'Z' || c == 'z' || c == '+' || c == '-'
  let time := t.takeWhile (!isSign ·)
  let offset := t.dropWhile (!isSign ·)
  isTime time && (offset = [] || isOffset offset)

/-- A date, a time, or a date with a time. -/
def isDateTime (t : Text) : Bool :=
  let date := t.take 10
  match t.drop 10 with
  | [] => isDate t || isTime t
  | c :: time =>
    if isDate date then (c == 'T' || c == 't' || c == ' ') && isZonedTime time else isTime t

/-! ### Scalars -/

/-- A number that starts with a decimal digit, a date or a time. `unsigned` is the run without its
sign: what comes behind its first digits decides what it has to be. -/
def isCount (run unsigned : Text) : Bool :=
  match unsigned.dropWhile Char.isDigit with
  | [] => hasNoZeroInFront unsigned
  | c :: rest =>
    if c == '-' || c == ':' then isDateTime run
    else if (c :: rest).any fun c => c == '.' || c == 'e' || c == 'E' then isFloat unsigned
    else c == '_' && hasNoZeroInFront unsigned && isGrouped isHexDigit false unsigned

/-- A number, a truth value, a date or a time. Hexadecimal, octal and binary integers have no
sign. -/
def isScalar (run : Text) : Bool :=
  match run with
  | '0' :: 'x' :: digits => isInBase isHexDigit digits
  | '0' :: 'o' :: digits => isInBase isOctalDigit digits
  | '0' :: 'b' :: digits => isInBase isBinaryDigit digits
  | _ =>
    let unsigned := withoutSign run
    run = "true".toList || run = "false".toList || unsigned = "inf".toList ||
      unsigned = "nan".toList || (unsigned.head?.any Char.isDigit && isCount run unsigned)

end EnvTemplates.Toml
