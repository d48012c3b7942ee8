import EnvTemplates.Text.Basic

/-!
# TOML values and tables

The value of a TOML document, as far as a configuration needs it: texts, arrays and tables are kept,
numbers, truth values and dates are only told apart from them.

A table remembers how it came to be, because that decides how it may be extended: a table with a
header of its own is never opened again, a table that dotted keys have made takes no header, and an
inline table is complete where it ends.
-/

namespace EnvTemplates.Toml

/-- How a table came to be. -/
inductive Origin where
  /-- By a header of its own. -/
  | header
  /-- As a part of the path in a header. -/
  | implied
  /-- As a part of a dotted key. -/
  | dotted
  /-- As a value between braces. -/
  | inline
  deriving DecidableEq, Repr

inductive Value where
  | text (t : Text)
  /-- A number, a truth value, a date or a time. -/
  | scalar
  | array (items : List Value)
  | table (origin : Origin) (entries : List (Text × Value))
  /-- The tables of headers in double brackets. -/
  | tables (items : List Value)

/-- The keys of a table with their values, in order. -/
abbrev Entries := List (Text × Value)

namespace Entries

def replace (key : Text) (v : Value) (es : Entries) : Entries :=
  es.map fun e => if e.1 = key then (key, v) else e

def has (key : Text) (es : Entries) : Bool := (es.lookup key).isSome

/-- Change the table that a path of keys leads to, making the tables on the way that do not exist
yet. `dotted` tells that the path is part of a dotted key and not of a header. The result is `none`
where the path leads through something that must not be extended. -/
def update (dotted : Bool) (change : Origin → Entries → Option Entries) :
    (path : List Text) → Origin → Entries → Option Entries
  | [], origin, es => change origin es
  | key :: path, _, es =>
    match es.lookup key with
    | none => do
      let made : Origin := if dotted then .dotted else .implied
      return es ++ [(key, .table made (← update dotted change path made []))]
    | some (.table origin inner) =>
      if origin = .inline ∨ dotted ∧ origin = .header then none
      else do return es.replace key (.table origin (← update dotted change path origin inner))
    | some (.tables items) =>
      match items.getLast? with
      | some (.table origin inner) => do
        let last := .table origin (← update dotted change path origin inner)
        return es.replace key (.tables (items.dropLast ++ [last]))
      | _ => none
    | _ => none

/-- Give a dotted key a value. A key has one value only, and dotted keys extend no table that other
means have made. -/
def assign (path : List Text) (key : Text) (v : Value) : Origin → Entries → Option Entries :=
  update true (fun origin es =>
    if path ≠ [] ∧ origin ≠ .dotted ∨ es.has key then none else some (es ++ [(key, v)])) path

/-- Open the table of a header. -/
def openTable (path : List Text) (key : Text) (es : Entries) : Option Entries :=
  update false (fun _ es =>
    match es.lookup key with
    | none => some (es ++ [(key, .table .header [])])
    | some (.table .implied inner) => some (es.replace key (.table .header inner))
    | _ => none) path .header es

/-- Open a new table of a header in double brackets. -/
def openElement (path : List Text) (key : Text) (es : Entries) : Option Entries :=
  update false (fun _ es =>
    match es.lookup key with
    | none => some (es ++ [(key, .tables [.table .header []])])
    | some (.tables items) => some (es.replace key (.tables (items ++ [.table .header []])))
    | _ => none) path .header es

end Entries

end EnvTemplates.Toml
