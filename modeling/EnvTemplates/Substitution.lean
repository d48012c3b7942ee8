import EnvTemplates.Event
import EnvTemplates.Placeholder
import EnvTemplates.Text.Replace
import EnvTemplates.Variables

/-!
# Substitution

`substitute` replaces the placeholders of a template by the values of the declared variables. The
variables take turns in the order of their declaration. In its turn, a variable's token is replaced
in pass after pass until it no longer occurs, because an inserted value can join with what stands
around it to form the token again. A variable whose value contains its own token gets one pass, and
no variable gets more than `maxPasses`.
-/

namespace EnvTemplates

structure Tally where
  key : Text
  count : Nat
  deriving DecidableEq, Repr

namespace Tally

/-- The first count that is kept for a key, if there is one. -/
def count? (key : Text) (tallies : List Tally) : Option Nat :=
  (tallies.find? fun t => t.key = key).map (·.count)

def addTo (key : Text) (n : Nat) : List Tally → List Tally
  | [] => []
  | t :: rest => if t.key = key then ⟨key, t.count + n⟩ :: rest else t :: addTo key n rest

def total (tallies : List Tally) : Nat := (tallies.map (·.count)).foldr (· + ·) 0

end Tally

structure Substitution where
  text : Text
  /-- The replacements made for each variable, in declaration order. -/
  replacements : List Tally
  /-- The keys of the placeholders in the template, in the order they first appear, each with the
  number of replacements made for it. -/
  referenced : List Tally
  deriving DecidableEq, Repr

namespace Substitution

/-- The keys of the template that nothing was replaced for. -/
def unresolved (s : Substitution) : List Text :=
  (s.referenced.filter fun t => t.count = 0).map (·.key)

def total (s : Substitution) : Nat := Tally.total s.replacements

/-! ### One variable's turn -/

def maxPasses : Nat := 64

/-- What a variable's turn does to a text. -/
structure Turn where
  text : Text
  count : Nat
  /-- Whether the token still occurred after the last pass that the limit allows. -/
  limited : Bool
  deriving DecidableEq, Repr

/-- Replace a token in pass after pass until a pass finds none, with `passes` passes left and
`count` replacements made so far. -/
def exhaust (token value : Text) : (passes count : Nat) → Text → Turn
  | 0, count, text => ⟨text, count, occursIn token text⟩
  | passes + 1, count, text =>
    let replaced := Text.replaceToken token value text
    if replaced.count = 0 then ⟨text, count, false⟩
    else exhaust token value passes (count + replaced.count) replaced.text

/-- A variable's turn on a text, with the warnings that it raises. -/
def turn (v : Variable) (text : Text) : Turn × List Event :=
  if occursIn v.token v.value then
    let replaced := Text.replaceToken v.token v.value text
    (⟨replaced.text, replaced.count, false⟩,
      if replaced.count = 0 then [] else [.selfReference v.key])
  else
    let done := exhaust v.token v.value maxPasses 0 text
    (done, if done.limited then [.passLimit v.key maxPasses] else [])

/-! ### All turns -/

/-- What the turns of some variables do to a text: the text, the tally of each variable and the
events. -/
structure Turns where
  text : Text
  tallies : List Tally
  events : List Event
  deriving DecidableEq, Repr

def takeTurns : List Variable → Text → Turns
  | [], text => ⟨text, [], []⟩
  | v :: rest, text =>
    let (done, warnings) := turn v text
    let more := takeTurns rest done.text
    ⟨more.text, ⟨v.key, done.count⟩ :: more.tallies,
      warnings ++ .substituted v.key done.count :: more.events⟩

/-- Substitute the variables into a template. The second component is what the turns log. -/
def run (template : Text) (vars : Variables) : Substitution × List Event :=
  let turns := takeTurns vars.toList template
  let referenced := (Placeholder.scanKeys template).map fun key =>
    ⟨key, (Tally.count? key turns.tallies).getD 0⟩
  (⟨turns.text, turns.tallies, referenced⟩, turns.events)

end Substitution

def substitute (template : Text) (vars : Variables) : Substitution :=
  (Substitution.run template vars).1

end EnvTemplates
