import EnvTemplates.Proofs.Placeholder.Parts
import EnvTemplates.Proofs.Substitution.Passes
import EnvTemplates.Proofs.Tallies
import EnvTemplates.Proofs.Variables

/-!
# Turn after turn

What holds of the turns of any variables on any text. The first part takes turns apart: a turn keeps
what every pass keeps (`turn_induction`), and the turns of a list of variables are those of its
first part followed by those of the rest (`takeTurns_append`).

The second part follows an occurrence of a token through the turns before its own. A token without
further dollar signs and closing braces is only ever touched by a token that contains it, so unless
an earlier variable has such a token, every occurrence in the template is there when its variable
takes its turn, and is counted (`occurrences_le_countOf`).
-/

namespace EnvTemplates.Substitution

open Placeholder

/-! ### Passes -/

theorem token_eq_written (v : Variable) : v.token = written v.key := rfl

/-- What every pass keeps of a text is kept by a turn. -/
theorem turn_induction {motive : Text → Prop} {v : Variable}
    (step : ∀ text, motive text → motive (pass v text).text)
    {text : Text} (h : motive text) : motive (turn v text).1.text := by
  have hpasses : ∀ n, motive (afterPasses v n text) := by
    intro n
    induction n with
    | zero => exact h
    | succ n ih =>
      rw [afterPasses_succ_apply]
      exact step _ ih
  rw [text_turn]
  exact hpasses (allowedPasses v)

/-- The first pass of a turn counts. -/
theorem count_pass_le_turn (v : Variable) (text : Text) :
    (pass v text).count ≤ (turn v text).1.count := by
  obtain ⟨later, hlater⟩ := Nat.exists_eq_succ_of_ne_zero (Nat.ne_of_gt (allowedPasses_pos v))
  rw [count_turn, hlater, Finset.sum_range_succ', foundAfter_zero]
  exact Nat.le_add_left _ _

/-! ### Turns -/

theorem keys_takeTurns (vs : List Variable) :
    ∀ text, (takeTurns vs text).tallies.map (·.key) = vs.map (·.key) := by
  induction vs with
  | nil =>
    intro text
    rfl
  | cons v vs ih =>
    intro text
    rw [takeTurns, List.map_cons, List.map_cons, ih]

theorem takeTurns_cons (v : Variable) (vs : List Variable) (text : Text) :
    takeTurns (v :: vs) text =
      ⟨(takeTurns vs (turn v text).1.text).text,
        ⟨v.key, (turn v text).1.count⟩ :: (takeTurns vs (turn v text).1.text).tallies,
        (turn v text).2 ++ .substituted v.key (turn v text).1.count ::
          (takeTurns vs (turn v text).1.text).events⟩ := rfl

/-- The turns of two lists of variables, one after the other. -/
theorem takeTurns_append (before after : List Variable) :
    ∀ text, takeTurns (before ++ after) text =
      ⟨(takeTurns after (takeTurns before text).text).text,
        (takeTurns before text).tallies ++ (takeTurns after (takeTurns before text).text).tallies,
        (takeTurns before text).events ++
          (takeTurns after (takeTurns before text).text).events⟩ := by
  induction before with
  | nil =>
    intro text
    rfl
  | cons v before ih =>
    intro text
    simp only [List.cons_append, takeTurns, ih, List.append_assoc]

/-- What every turn keeps of a text is kept by all of them. -/
theorem takeTurns_induction {motive : Text → Prop} {vs : List Variable}
    (step : ∀ v ∈ vs, ∀ text, motive text → motive (turn v text).1.text) {text : Text}
    (h : motive text) : motive (takeTurns vs text).text := by
  induction vs generalizing text with
  | nil => exact h
  | cons v vs ih =>
    exact ih (fun u hu => step u (List.mem_cons_of_mem v hu)) (step v List.mem_cons_self text h)

/-! ### The count of a key -/

/-- The number of replacements that a substitution made for a key. -/
def countOf (s : Substitution) (key : Text) : Nat := (Tally.count? key s.replacements).getD 0

theorem keys_replacements (template : Text) (vars : Variables) :
    (substitute template vars).replacements.map (·.key) = vars.keys :=
  keys_takeTurns vars.toList template

theorem countOf_eq_zero {template key : Text} {vars : Variables} (h : key ∉ vars.keys) :
    (substitute template vars).countOf key = 0 := by
  have hnone : Tally.count? key (substitute template vars).replacements = none := by
    rw [Tally.count?_eq_none_iff, keys_replacements]
    exact h
  rw [countOf, hnone]
  rfl

/-- A variable is counted in its own turn, on the text that the turns before it leave. -/
theorem countOf_eq_count_turn {vars : Variables} {before after : List Variable} {v : Variable}
    (h : vars.toList = before ++ v :: after) (template : Text) :
    (substitute template vars).countOf v.key =
      (turn v (takeTurns before template).text).1.count := by
  -- The variable is the only one with its key, so its tally is the first with that key.
  have hnew : v.key ∉ before.map (·.key) := by
    intro hmem
    obtain ⟨u, hu, hkey⟩ := List.mem_map.1 hmem
    exact Variables.key_ne_of_toList_eq h u hu hkey
  have hnone : Tally.count? v.key (takeTurns before template).tallies = none := by
    rw [Tally.count?_eq_none_iff, keys_takeTurns]
    exact hnew
  rw [countOf, substitute, run, h, takeTurns_append]
  simp only [Tally.count?_append, hnone, Option.none_or, takeTurns, Tally.count?_cons_self,
    Option.getD_some]

/-! ### What becomes of an occurrence -/

/-- A turn loses no occurrence of a token that its own token does not contain. -/
theorem occurrences_le_turn {key : Text} {v : Variable} (hdollar : '$' ∉ key) (hbrace : '}' ∉ key)
    (hnot : ¬ written key <:+: v.token) (text : Text) :
    Text.occurrences (written key) text ≤ Text.occurrences (written key) (turn v text).1.text := by
  have hfirst : '$' ∉ '{' :: key := by simpa using hdollar
  have hlast : '}' ∉ '{' :: key := by simpa using hbrace
  have hpass : ∀ t, Text.occurrences (written key) t ≤
      Text.occurrences (written key) (Text.replaceToken v.token v.value t).text := by
    intro t
    apply Text.occurrences_le_replaceToken ('{' :: v.key) _ hfirst hlast hnot t
    decide
  exact turn_induction (motive := fun t => Text.occurrences (written key) text ≤
    Text.occurrences (written key) t) (fun t ht => Nat.le_trans ht (hpass t)) (Nat.le_refl _)

/-- **Occurrences that no earlier token contains are all replaced.** -/
theorem occurrences_le_countOf {vars : Variables} {before after : List Variable} {v : Variable}
    (h : vars.toList = before ++ v :: after) (hdollar : '$' ∉ v.key) (hbrace : '}' ∉ v.key)
    (hnot : ∀ u ∈ before, ¬ v.token <:+: u.token) (template : Text) :
    Text.occurrences v.token template ≤ (substitute template vars).countOf v.key := by
  have hkept : Text.occurrences v.token template ≤
      Text.occurrences v.token (takeTurns before template).text := by
    refine takeTurns_induction (motive := fun t => Text.occurrences v.token template ≤
      Text.occurrences v.token t) (fun u hu t ht => Nat.le_trans ht ?_) (Nat.le_refl _)
    exact occurrences_le_turn hdollar hbrace (hnot u hu) t
  have htail : '$' ∉ '{' :: (v.key ++ ['}']) := by
    simp [hdollar]
  -- Tokens without a second dollar sign do not overlap, and the first pass replaces them all.
  have hpass : (Text.replaceToken v.token v.value (takeTurns before template).text).count =
      Text.occurrences v.token (takeTurns before template).text :=
    Text.count_replaceToken htail _
  rw [countOf_eq_count_turn h]
  calc Text.occurrences v.token template
      ≤ Text.occurrences v.token (takeTurns before template).text := hkept
    _ = (Text.replaceToken v.token v.value (takeTurns before template).text).count := hpass.symm
    _ ≤ (turn v (takeTurns before template).text).1.count := count_pass_le_turn v _

end EnvTemplates.Substitution
