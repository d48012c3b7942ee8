import Mathlib.Algebra.BigOperators.Group.List.Basic
import Mathlib.Tactic.Ring
import EnvTemplates.Proofs.Substitution.Turns
import EnvTemplates.Proofs.Text.Weight

/-!
# Counts account for every byte

A substitution makes text only by exchanging tokens for values, and counts each exchange. So for
each weight, and in particular for the number of a character and for the length in bytes,

    result + Σ count * token  =  template + Σ count * value

over the declared variables (`weight_substitute`). The equation is carried from a pass to a turn and
from a turn to all turns, whatever stops them: values that join to new tokens, values that contain
their own token and turns that end at the limit are no exceptions.
-/

namespace EnvTemplates.Substitution

open Text (weight)

variable (w : Char → Nat)

/-! ### Passes and turns -/

theorem weight_afterPasses (v : Variable) (n : Nat) (text : Text) :
    weight w (afterPasses v n text) +
        (∑ i ∈ Finset.range n, foundAfter v i text) * weight w v.token =
      weight w text + (∑ i ∈ Finset.range n, foundAfter v i text) * weight w v.value := by
  induction n with
  | zero => simp
  | succ n ih =>
    have hpass : weight w (pass v (afterPasses v n text)).text +
        foundAfter v n text * weight w v.token =
          weight w (afterPasses v n text) + foundAfter v n text * weight w v.value :=
      Text.weight_replaceToken w v.token v.value (afterPasses v n text)
    rw [afterPasses_succ_apply, Finset.sum_range_succ, Nat.add_mul, Nat.add_mul]
    omega

theorem weight_turn (v : Variable) (text : Text) :
    weight w (turn v text).1.text + (turn v text).1.count * weight w v.token =
      weight w text + (turn v text).1.count * weight w v.value := by
  rw [text_turn, count_turn]
  exact weight_afterPasses w v (allowedPasses v) text

theorem weight_takeTurns {count : Text → Nat} :
    ∀ {vs : List Variable} {text : Text},
      (takeTurns vs text).tallies = vs.map (fun v => ⟨v.key, count v.key⟩) →
      weight w (takeTurns vs text).text + (vs.map fun v => count v.key * weight w v.token).sum =
        weight w text + (vs.map fun v => count v.key * weight w v.value).sum
  | [], text, _ => rfl
  | v :: vs, text, h => by
    rw [takeTurns_cons, List.map_cons, List.cons.injEq, Tally.mk.injEq] at h
    obtain ⟨⟨-, hcount⟩, hrest⟩ := h
    have hturn := weight_turn w v text
    have hturns := weight_takeTurns hrest
    rw [hcount] at hturn
    rw [List.map_cons, List.map_cons, List.sum_cons, List.sum_cons]
    show weight w (takeTurns vs (turn v text).1.text).text + (_ + _) = weight w text + (_ + _)
    omega

/-! ### Whole substitutions -/

theorem replacements_eq_map (template : Text) (vars : Variables) :
    (substitute template vars).replacements =
      vars.toList.map fun v => ⟨v.key, (substitute template vars).countOf v.key⟩ := by
  have hkeys := keys_replacements template vars
  have hdistinct : ((substitute template vars).replacements.map (·.key)).Nodup := by
    rw [hkeys]
    exact vars.distinct
  have heq := Tally.eq_map_of_nodup hdistinct
  rw [hkeys, Variables.keys, List.map_map] at heq
  exact heq

/-- Every weight is conserved, up to what the replacements put in and take out. -/
theorem weight_substitute (template : Text) (vars : Variables) :
    weight w (substitute template vars).text +
        (vars.toList.map fun v =>
          (substitute template vars).countOf v.key * weight w v.token).sum =
      weight w template +
        (vars.toList.map fun v =>
          (substitute template vars).countOf v.key * weight w v.value).sum :=
  weight_takeTurns w (replacements_eq_map template vars)

theorem sum_map_mul_sub (f a b : Variable → Nat) (vs : List Variable) :
    (vs.map fun v => (f v : ℤ) * ((a v : ℤ) - (b v : ℤ))).sum =
      ((vs.map fun v => f v * a v).sum : ℕ) - ((vs.map fun v => f v * b v).sum : ℕ) := by
  induction vs with
  | nil => rfl
  | cons v vs ih =>
    rw [List.map_cons, List.map_cons, List.map_cons, List.sum_cons, List.sum_cons, List.sum_cons,
      ih]
    push_cast
    ring

/-- What a template refers to has the counts of the replacements. -/
theorem count_of_mem_referenced {template : Text} {vars : Variables} {t : Tally}
    (h : t ∈ (substitute template vars).referenced) :
    t.count = (substitute template vars).countOf t.key := by
  obtain ⟨key, -, rfl⟩ := List.mem_map.1 h
  rfl

/-- **Counts account for every byte.** Each character occurs in the result as often as in the
template, plus what the values that are counted have of it, less what their tokens have of it. So
does the length in bytes. The counts are those of the declared keys, in the order of their
declaration, and the keys that the template refers to have the same counts, or zero if they are not
declared. -/
theorem substitute_conserves (template : Text) (vars : Variables) :
    (∀ c, (substitute template vars).text.count c +
        (vars.toList.map fun v =>
          (substitute template vars).countOf v.key * v.token.count c).sum =
      template.count c +
        (vars.toList.map fun v =>
          (substitute template vars).countOf v.key * v.value.count c).sum) ∧
    ((substitute template vars).text.byteLength : ℤ) =
      template.byteLength + (vars.toList.map fun v =>
        ((substitute template vars).countOf v.key : ℤ) *
          ((v.value.byteLength : ℤ) - (v.token.byteLength : ℤ))).sum ∧
    (substitute template vars).replacements =
      vars.toList.map (fun v => ⟨v.key, (substitute template vars).countOf v.key⟩) ∧
    ∀ t ∈ (substitute template vars).referenced,
      (t.key ∈ vars.keys → t ∈ (substitute template vars).replacements) ∧
      (t.key ∉ vars.keys → t.count = 0) := by
  refine ⟨fun c => ?_, ?_, replacements_eq_map template vars, fun t ht => ⟨fun hkey => ?_, ?_⟩⟩
  · simp only [Text.count_eq_weight]
    exact weight_substitute _ template vars
  · have hbytes := weight_substitute Char.utf8Size template vars
    simp only [← Text.byteLength_eq_weight] at hbytes
    rw [sum_map_mul_sub]
    omega
  · obtain ⟨v, hv, hvkey⟩ := List.mem_map.1 hkey
    rw [replacements_eq_map, List.mem_map]
    refine ⟨v, hv, ?_⟩
    rw [hvkey, ← count_of_mem_referenced ht]
  · intro hkey
    rw [count_of_mem_referenced ht, countOf_eq_zero hkey]

/-- Values that join with what stands around them to form their tokens again. -/
def joining : Variables := .ofList [⟨['A'], []⟩, ⟨['H'], ['}']⟩]

def joined : Text := "$${A}{A}".toList ++ '$' :: '{' :: 'H' :: "${H}".toList

/-- All four dollar signs are taken by tokens, two of which only come about by replacing. -/
theorem substitute_conserves_joined :
    (substitute joined joining).text.count '$' + 4 = 4 ∧
      ⟨['H'], 2⟩ ∈ (substitute joined joining).replacements := by
  obtain ⟨hcount, -, -, hreferenced⟩ := substitute_conserves joined joining
  constructor
  · exact (hcount '$').trans (by decide)
  · exact (hreferenced ⟨['H'], 2⟩ (by decide +kernel)).1 (by decide)

end EnvTemplates.Substitution
