import EnvTemplates.Proofs.Substitution.Turns

/-!
# Turns that replace nothing

A variable that replaces nothing has taken its turn in vain: the text is what it was, and no warning
was raised (`turn_of_count_eq_zero`). So variables that replace nothing in a template can be left
out, wherever they stand among the others, and every other variable finds the text that it found
before (`takeTurns_filter`, `countOf_removeAll`).
-/

namespace EnvTemplates

/-- The variables apart from those with the given keys. -/
def Variables.removeAll (vars : Variables) (keys : List Text) : Variables where
  toList := vars.toList.filter fun v => v.key ∉ keys
  distinct := vars.distinct.sublist ((List.filter_sublist).map _)

theorem Variables.keys_removeAll (vars : Variables) (keys : List Text) :
    (vars.removeAll keys).keys = vars.keys.filter fun key => key ∉ keys := by
  rw [Variables.keys, Variables.keys, List.filter_map]
  rfl

namespace Substitution

/-! ### One turn -/

/-- A turn without replacements leaves the text alone and warns of nothing. -/
theorem turn_of_count_eq_zero {v : Variable} {text : Text} (h : (turn v text).1.count = 0) :
    turn v text = (⟨text, 0, false⟩, []) := by
  have hpass : (pass v text).count = 0 := Nat.le_zero.1 (h ▸ count_pass_le_turn v text)
  have htext := text_pass_of_count_eq_zero hpass
  by_cases hself : v.token <:+: v.value
  · rw [turn_of_self v text hself, htext, hpass, if_pos rfl]
  · rw [turn_of_second_idle hself (by rw [htext, hpass]), htext, hpass]

/-! ### All turns -/

/-- **Variables that replace nothing can be left out.** The others do the same to the text, and
raise the same warnings. -/
theorem takeTurns_filter (keep : Text → Bool) {vs : List Variable} : ∀ {text : Text},
    (∀ t ∈ (takeTurns vs text).tallies, keep t.key = false → t.count = 0) →
    (takeTurns (vs.filter fun v => keep v.key) text).text = (takeTurns vs text).text ∧
    (takeTurns (vs.filter fun v => keep v.key) text).tallies =
      (takeTurns vs text).tallies.filter (fun t => keep t.key) ∧
    (takeTurns (vs.filter fun v => keep v.key) text).events.filter Event.isWarning =
      (takeTurns vs text).events.filter Event.isWarning := by
  induction vs with
  | nil =>
    intro text _
    exact ⟨rfl, rfl, rfl⟩
  | cons v vs ih =>
    intro text h
    rw [takeTurns_cons] at h ⊢
    obtain ⟨hv, hvs⟩ := List.forall_mem_cons.1 h
    obtain ⟨htext, htallies, hevents⟩ := ih hvs
    rw [List.filter_cons, List.filter_cons]
    cases hkeep : keep v.key with
    | true =>
      rw [if_pos rfl, if_pos rfl, takeTurns_cons]
      refine ⟨htext, congrArg _ htallies, ?_⟩
      simp only [List.filter_append, List.filter_cons, hevents]
    | false =>
      -- What comes after the turn starts from the text that the turn was given.
      rw [turn_of_count_eq_zero (hv hkeep)] at htext htallies hevents ⊢
      rw [if_neg Bool.false_ne_true, if_neg Bool.false_ne_true]
      exact ⟨htext, htallies, hevents⟩

/-! ### Whole substitutions -/

section RemoveAll

variable {template : Text} {vars : Variables} {keys : List Text}

/-- Keys that nothing is replaced for have tallies of zero. -/
theorem count_eq_zero_of_countOf {key : Text} {t : Tally}
    (ht : t ∈ (takeTurns vars.toList template).tallies) (hkey : t.key = key)
    (h : (substitute template vars).countOf key = 0) : t.count = 0 := by
  have hdistinct : ((takeTurns vars.toList template).tallies.map (·.key)).Nodup := by
    rw [keys_takeTurns]
    exact vars.distinct
  rw [← Tally.getD_count?_of_mem hdistinct ht, hkey]
  exact h

/-- What a substitution does without variables that replace nothing in it. -/
theorem run_removeAll (h : ∀ key ∈ keys, (substitute template vars).countOf key = 0) :
    (substitute template (vars.removeAll keys)).text = (substitute template vars).text ∧
    (substitute template (vars.removeAll keys)).replacements =
      (substitute template vars).replacements.filter (fun t => t.key ∉ keys) ∧
    (run template (vars.removeAll keys)).2.filter Event.isWarning =
      (run template vars).2.filter Event.isWarning := by
  apply takeTurns_filter (fun key => key ∉ keys)
  intro t ht hremoved
  exact count_eq_zero_of_countOf ht rfl (h t.key (by simpa using hremoved))

/-- Every key counts as before, whether it was removed or not. -/
theorem countOf_removeAll (h : ∀ key ∈ keys, (substitute template vars).countOf key = 0)
    (key : Text) :
    (substitute template (vars.removeAll keys)).countOf key =
      (substitute template vars).countOf key := by
  by_cases hkey : key ∈ keys
  · rw [h key hkey, countOf_eq_zero]
    rw [Variables.keys_removeAll, List.mem_filter]
    simp [hkey]
  · rw [countOf, (run_removeAll h).2.1, Tally.count?_filter (fun key => key ∉ keys)]
    simp only [hkey, not_false_eq_true, decide_true, if_true]
    rfl

theorem total_removeAll (h : ∀ key ∈ keys, (substitute template vars).countOf key = 0) :
    (substitute template (vars.removeAll keys)).total = (substitute template vars).total := by
  rw [total, total, (run_removeAll h).2.1]
  apply Tally.total_filter (fun key => key ∉ keys)
  intro t ht hremoved
  exact count_eq_zero_of_countOf ht rfl (h t.key (by simpa using hremoved))

end RemoveAll

end Substitution

end EnvTemplates
