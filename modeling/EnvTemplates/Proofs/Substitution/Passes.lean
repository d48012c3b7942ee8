import Mathlib.Algebra.BigOperators.Group.Finset.Basic
import Mathlib.Logic.Function.Iterate
import EnvTemplates.Proofs.Text.Replacement
import EnvTemplates.Substitution

/-!
# The passes of a turn

A turn stops at the first pass that finds nothing. As such a pass leaves the text alone, and all
later ones would find the same text, stopping there is the same as going on to the limit. So a turn
is told without its exits: its text is that of all the passes it is allowed (`text_turn`), its count
is the sum of what they find (`count_turn`), and it warns by a condition on each of these
(`turn_of_self`, `turn_of_not_self`).
-/

namespace EnvTemplates.Substitution

/-- One pass of a variable over a text. -/
def pass (v : Variable) (text : Text) : Text.Replaced := Text.replaceToken v.token v.value text

/-- The text after a number of passes, whether or not they find anything. -/
def afterPasses (v : Variable) (n : Nat) (text : Text) : Text := (fun t => (pass v t).text)^[n] text

/-- How many replacements the next pass makes after a number of passes. -/
def foundAfter (v : Variable) (n : Nat) (text : Text) : Nat := (pass v (afterPasses v n text)).count

/-- The number of passes that a variable may have. -/
def allowedPasses (v : Variable) : Nat := if v.token <:+: v.value then 1 else maxPasses

/-- The token of a variable outlasts a number of passes: each of them replaces something, and the
token is there after the last one. -/
def Outlasts (v : Variable) (n : Nat) (text : Text) : Prop :=
  (∀ i < n, 0 < foundAfter v i text) ∧ v.token <:+: afterPasses v n text

instance (v : Variable) (n : Nat) (text : Text) : Decidable (Outlasts v n text) :=
  inferInstanceAs (Decidable (_ ∧ _))

/-! ### Pass after pass -/

section Passes

variable {v : Variable} {text : Text}

theorem token_ne_nil (v : Variable) : v.token ≠ [] := List.cons_ne_nil _ _

@[simp] theorem afterPasses_zero (v : Variable) (text : Text) : afterPasses v 0 text = text := rfl

/-- The first pass, and then the others. -/
theorem afterPasses_succ (v : Variable) (n : Nat) (text : Text) :
    afterPasses v (n + 1) text = afterPasses v n (pass v text).text := rfl

/-- The last pass after the others. -/
theorem afterPasses_succ_apply (v : Variable) (n : Nat) (text : Text) :
    afterPasses v (n + 1) text = (pass v (afterPasses v n text)).text :=
  Function.iterate_succ_apply' _ n text

theorem foundAfter_zero (v : Variable) (text : Text) :
    foundAfter v 0 text = (pass v text).count := rfl

theorem foundAfter_succ (v : Variable) (n : Nat) (text : Text) :
    foundAfter v (n + 1) text = foundAfter v n (pass v text).text := rfl

theorem count_pass_eq_zero_iff : (pass v text).count = 0 ↔ ¬ v.token <:+: text :=
  Text.count_replaceToken_eq_zero_iff (token_ne_nil v)

theorem text_pass_of_count_eq_zero (h : (pass v text).count = 0) : (pass v text).text = text :=
  Text.text_replaceToken_of_count_eq_zero h

/-- After a pass that finds nothing the text stays what it is. -/
theorem afterPasses_of_count_eq_zero (h : (pass v text).count = 0) (n : Nat) :
    afterPasses v n text = text :=
  Function.iterate_fixed (text_pass_of_count_eq_zero h) n

theorem foundAfter_of_count_eq_zero (h : (pass v text).count = 0) (n : Nat) :
    foundAfter v n text = 0 := by
  rw [foundAfter, afterPasses_of_count_eq_zero h, h]

/-- Once a pass has found nothing, the text is what it will be. -/
theorem afterPasses_of_foundAfter_eq_zero {i n : Nat} (h : foundAfter v i text = 0) (hle : i ≤ n) :
    afterPasses v n text = afterPasses v i text := by
  have hsplit : n = (n - i) + i := by omega
  rw [hsplit, afterPasses, Function.iterate_add_apply]
  exact afterPasses_of_count_eq_zero h (n - i)

/-- A token that is there after some passes was there before each of them. -/
theorem outlasts_iff {n : Nat} : Outlasts v n text ↔ v.token <:+: afterPasses v n text := by
  refine ⟨And.right, fun hin => ⟨fun i hi => Nat.pos_of_ne_zero fun hidle => ?_, hin⟩⟩
  rw [afterPasses_of_foundAfter_eq_zero hidle (Nat.le_of_lt hi)] at hin
  exact count_pass_eq_zero_iff.1 hidle hin

theorem exhaust_of_count_eq_zero {passes count : Nat} (h : (pass v text).count = 0) :
    exhaust v.token v.value (passes + 1) count text = ⟨text, count, false⟩ :=
  if_pos h

theorem exhaust_of_count_ne_zero {passes count : Nat} (h : (pass v text).count ≠ 0) :
    exhaust v.token v.value (passes + 1) count text =
      exhaust v.token v.value passes (count + (pass v text).count) (pass v text).text :=
  if_neg h

/-- **Stopping early changes nothing**: passes up to the first idle one are all the passes. -/
theorem exhaust_eq (v : Variable) (passes : Nat) : ∀ (count : Nat) (text : Text),
    exhaust v.token v.value passes count text =
      ⟨afterPasses v passes text, count + ∑ i ∈ Finset.range passes, foundAfter v i text,
        occursIn v.token (afterPasses v passes text)⟩ := by
  induction passes with
  | zero => exact fun _ _ => rfl
  | succ passes ih =>
    intro count text
    by_cases hidle : (pass v text).count = 0
    · have habsent : occursIn v.token text = false := by
        rw [← Bool.not_eq_true, occursIn_iff]
        exact count_pass_eq_zero_iff.1 hidle
      have hnone : ∑ i ∈ Finset.range (passes + 1), foundAfter v i text = 0 :=
        Finset.sum_eq_zero fun i _ => foundAfter_of_count_eq_zero hidle i
      rw [exhaust_of_count_eq_zero hidle, afterPasses_of_count_eq_zero hidle, hnone, habsent,
        Nat.add_zero]
    · have hrest := ih (count + (pass v text).count) (pass v text).text
      rw [exhaust_of_count_ne_zero hidle, Finset.sum_range_succ']
      refine hrest.trans ?_
      simp only [foundAfter_succ, foundAfter_zero, afterPasses_succ, Nat.add_assoc, Nat.add_comm]

end Passes

/-! ### A whole turn -/

section Turn

variable (v : Variable) (text : Text)

theorem allowedPasses_of_self (h : v.token <:+: v.value) : allowedPasses v = 1 := if_pos h

theorem allowedPasses_of_not_self (h : ¬ v.token <:+: v.value) : allowedPasses v = maxPasses :=
  if_neg h

theorem allowedPasses_pos : 0 < allowedPasses v := by
  rw [allowedPasses]
  split <;> decide

theorem turn_of_self (h : v.token <:+: v.value) :
    turn v text = (⟨(pass v text).text, (pass v text).count, false⟩,
      if (pass v text).count = 0 then [] else [.selfReference v.key]) := by
  rw [turn, if_pos (occursIn_iff.2 h)]
  rfl

theorem turn_of_not_self (h : ¬ v.token <:+: v.value) :
    turn v text =
      (⟨afterPasses v maxPasses text, ∑ i ∈ Finset.range maxPasses, foundAfter v i text,
          occursIn v.token (afterPasses v maxPasses text)⟩,
        if Outlasts v maxPasses text then [.passLimit v.key maxPasses] else []) := by
  rw [turn, if_neg (by rwa [occursIn_iff]), exhaust_eq]
  simp only [Nat.zero_add, occursIn_iff, outlasts_iff]

/-- A turn is a single pass if a second one finds nothing. -/
theorem turn_of_second_idle {v : Variable} {text : Text} (hself : ¬ v.token <:+: v.value)
    (h : (pass v (pass v text).text).count = 0) :
    turn v text = (⟨(pass v text).text, (pass v text).count, false⟩, []) := by
  have hpasses : maxPasses = 63 + 1 := rfl
  have htext : afterPasses v maxPasses text = (pass v text).text := by
    rw [hpasses, afterPasses_succ, afterPasses_of_count_eq_zero h]
  have hcount : ∑ i ∈ Finset.range maxPasses, foundAfter v i text = (pass v text).count := by
    rw [hpasses, Finset.sum_range_succ', foundAfter_zero]
    simp only [foundAfter_succ, foundAfter_of_count_eq_zero h, Finset.sum_const_zero, Nat.zero_add]
  have habsent : ¬ v.token <:+: (pass v text).text := count_pass_eq_zero_iff.1 h
  have hgone : occursIn v.token (pass v text).text = false := by
    rw [← Bool.not_eq_true, occursIn_iff]
    exact habsent
  have hlimit : ¬ Outlasts v maxPasses text := by
    rw [outlasts_iff, htext]
    exact habsent
  rw [turn_of_not_self v text hself, if_neg hlimit, htext, hcount, hgone]

/-- The text after a turn is the text after all passes that the variable may have. -/
theorem text_turn : (turn v text).1.text = afterPasses v (allowedPasses v) text := by
  by_cases h : v.token <:+: v.value
  · rw [turn_of_self v text h, allowedPasses_of_self v h]
    rfl
  · rw [turn_of_not_self v text h, allowedPasses_of_not_self v h]

/-- The count of a turn is the sum of what its passes find. -/
theorem count_turn :
    (turn v text).1.count = ∑ i ∈ Finset.range (allowedPasses v), foundAfter v i text := by
  by_cases h : v.token <:+: v.value
  · rw [turn_of_self v text h, allowedPasses_of_self v h, Finset.sum_range_one]
    rfl
  · rw [turn_of_not_self v text h, allowedPasses_of_not_self v h]

/-- **A token that is still there after its turn** is in its own value, and was replaced, or it
outlasts the passes. -/
theorem cases_of_infix_turn {v : Variable} {text : Text} (h : v.token <:+: (turn v text).1.text) :
    (v.token <:+: v.value ∧ 0 < (turn v text).1.count) ∨
      (¬ v.token <:+: v.value ∧ Outlasts v maxPasses text) := by
  by_cases hself : v.token <:+: v.value
  · refine Or.inl ⟨hself, Nat.pos_of_ne_zero fun hzero => ?_⟩
    -- Otherwise the only pass finds nothing and leaves the text as it is.
    rw [turn_of_self v text hself] at h hzero
    have habsent := count_pass_eq_zero_iff.1 hzero
    rw [text_pass_of_count_eq_zero hzero] at h
    exact habsent h
  · refine Or.inr ⟨hself, outlasts_iff.2 ?_⟩
    rwa [text_turn, allowedPasses_of_not_self v hself] at h

end Turn

end EnvTemplates.Substitution
