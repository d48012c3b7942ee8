import EnvTemplates.Proofs.Substitution.Idle

/-!
# What is left of the declared tokens

Declared tokens are replaced until they are gone. Where one of them is in the result all the same,
there is one of three reasons: its value contains it, it outlasts the passes, or a later variable
has brought it back. The first two are warned about in the order of the declarations, and nothing
else is (`exhausted_or_warned`).
-/

namespace EnvTemplates.Substitution

/-- The text that a variable finds when its turn starts. -/
def startOf (template : Text) (vars : Variables) (key : Text) : Text :=
  (takeTurns (vars.before key) template).text

/-- The warning about a variable, if its turn gives reason for one. -/
def warning? (template : Text) (vars : Variables) (v : Variable) : Option Event :=
  if v.token <:+: v.value then
    if 0 < (substitute template vars).countOf v.key then some (.selfReference v.key) else none
  else if Outlasts v 64 (startOf template vars v.key) then some (.passLimit v.key 64)
  else none

section Declared

variable {template : Text} {vars : Variables} {before after : List Variable} {v : Variable}

theorem countOf_eq_count_turn_startOf (h : vars.toList = before ++ v :: after) :
    (substitute template vars).countOf v.key =
      (turn v (startOf template vars v.key)).1.count := by
  rw [countOf_eq_count_turn h, startOf, Variables.before_eq h]

/-! ### Tokens -/

/-- Turns that replace nothing leave the text alone. -/
theorem text_takeTurns_of_counts {vs : List Variable} {text : Text}
    (h : ∀ t ∈ (takeTurns vs text).tallies, t.count = 0) : (takeTurns vs text).text = text := by
  have hnone := (takeTurns_filter (fun _ => false) fun t ht _ => h t ht).1
  rw [List.filter_false] at hnone
  exact hnone.symm

/-- The result is the text after the turn of a variable, unless a later one replaces something. -/
theorem text_substitute_or (template : Text) (h : vars.toList = before ++ v :: after) :
    (substitute template vars).text = (turn v (startOf template vars v.key)).1.text ∨
      ∃ u ∈ after, 0 < (substitute template vars).countOf u.key := by
  by_contra hnot
  rw [not_or] at hnot
  obtain ⟨htext, hzero⟩ := hnot
  apply htext
  rw [startOf, Variables.before_eq h, substitute, run, h, takeTurns_append, takeTurns_cons]
  apply text_takeTurns_of_counts
  intro t ht
  -- The tally is that of a variable after this one.
  have hkey : t.key ∈ after.map (·.key) := by
    rw [← keys_takeTurns after]
    exact List.mem_map_of_mem ht
  obtain ⟨u, hu, hukey⟩ := List.mem_map.1 hkey
  refine count_eq_zero_of_countOf ?_ hukey.symm
    (Nat.eq_zero_of_not_pos fun hpos => hzero ⟨u, hu, hpos⟩)
  rw [h, takeTurns_append, takeTurns_cons]
  exact List.mem_append_right _ (List.mem_cons_of_mem _ ht)

/-! ### Warnings -/

theorem warnings_turn (h : vars.toList = before ++ v :: after) :
    (turn v (startOf template vars v.key)).2 = (warning? template vars v).toList := by
  rw [warning?, countOf_eq_count_turn_startOf h]
  by_cases hself : v.token <:+: v.value
  · rw [turn_of_self v _ hself, if_pos hself]
    simp only [Nat.pos_iff_ne_zero, ite_not]
    split
    · rfl
    · rfl
  · rw [turn_of_not_self v _ hself, if_neg hself]
    show (if Outlasts v 64 _ then _ else _) = _
    split
    · rfl
    · rfl

theorem isWarning_of_mem_warning? :
    ∀ e ∈ (warning? template vars v).toList, e.isWarning = true := by
  rw [warning?]
  split
  · split
    · simp [Event.isWarning, Event.level]
    · simp
  · split
    · simp [Event.isWarning, Event.level]
    · simp

/-- What a warning says depends on whether the value of its variable contains the token. -/
theorem message_of_warning? {e : Event} (h : warning? template vars v = some e) : e.message =
    if v.token <:+: v.value then "value contains its own placeholder"
    else "placeholder still present after maximum substitution passes" := by
  rw [warning?] at h
  split at h
  · next hself =>
    rw [if_pos hself]
    split at h
    · cases h
      exact Event.message_selfReference v.key
    · cases h
  · next hself =>
    rw [if_neg hself]
    split at h
    · cases h
      exact Event.message_passLimit v.key 64
    · cases h

/-- The warnings of the turns from a variable on. -/
theorem warnings_takeTurns (template : Text) (vars : Variables) (rest : List Variable) :
    ∀ before, vars.toList = before ++ rest →
    (takeTurns rest (takeTurns before template).text).events.filter Event.isWarning =
      rest.filterMap (warning? template vars) := by
  induction rest with
  | nil => exact fun _ _ => rfl
  | cons v rest ih =>
    intro before h
    have hstart : (takeTurns before template).text = startOf template vars v.key := by
      rw [startOf, Variables.before_eq h]
    have hwarnings : (turn v (startOf template vars v.key)).2.filter Event.isWarning =
        (warning? template vars v).toList := by
      rw [warnings_turn h, List.filter_eq_self.2 isWarning_of_mem_warning?]
    have hrest : (takeTurns rest (turn v (startOf template vars v.key)).1.text).events.filter
        Event.isWarning = rest.filterMap (warning? template vars) := by
      have hnext : vars.toList = (before ++ [v]) ++ rest := by simp [h]
      have hih := ih _ hnext
      rw [takeTurns_append, hstart] at hih
      exact hih
    rw [hstart, takeTurns_cons, List.filter_append, hwarnings,
      List.filter_cons_of_neg (by simp [Event.isWarning, Event.level]), hrest]
    cases hw : warning? template vars v with
    | none => rw [List.filterMap_cons_none hw, Option.toList_none, List.nil_append]
    | some e => rw [List.filterMap_cons_some hw, Option.toList_some, List.singleton_append]

end Declared

/-- **Declared tokens are exhausted, and every exception is announced.** If the token of a declared
variable is left in the result, its value contains it and it was replaced, or it outlasted the 64
passes of its turn, or a variable declared after it was replaced. The warnings are, in the order of
the declarations, one for each self-containing value that was inserted and one for each other token
that outlasted its passes, and each of them says which of the two it is. -/
theorem exhausted_or_warned (template : Text) (vars : Variables) :
    (∀ v ∈ vars.toList, v.token <:+: (substitute template vars).text →
      (v.token <:+: v.value ∧ 0 < (substitute template vars).countOf v.key) ∨
      (¬ v.token <:+: v.value ∧ Outlasts v 64 (startOf template vars v.key)) ∨
      ∃ u, [v, u].Sublist vars.toList ∧ 0 < (substitute template vars).countOf u.key) ∧
    (run template vars).2.filter Event.isWarning =
      vars.toList.filterMap (warning? template vars) ∧
    ∀ e ∈ (run template vars).2, e.isWarning = true →
      ∃ v ∈ vars.toList, warning? template vars v = some e ∧ e.message =
        if v.token <:+: v.value then "value contains its own placeholder"
        else "placeholder still present after maximum substitution passes" := by
  have hwarnings : (run template vars).2.filter Event.isWarning =
      vars.toList.filterMap (warning? template vars) :=
    warnings_takeTurns template vars vars.toList [] rfl
  refine ⟨fun v hv hin => ?_, hwarnings, fun e he hwarning => ?_⟩
  · obtain ⟨before, after, h⟩ := List.append_of_mem hv
    rcases text_substitute_or template h with htext | ⟨u, hu, hcount⟩
    · rw [htext] at hin
      rw [countOf_eq_count_turn_startOf h]
      rcases cases_of_infix_turn hin with hself | hlimit
      · exact Or.inl hself
      · exact Or.inr (Or.inl hlimit)
    · refine Or.inr (Or.inr ⟨u, ?_, hcount⟩)
      rw [h]
      exact ((List.singleton_sublist.2 hu).cons_cons v).trans (List.sublist_append_right before _)
  · have hmem := List.mem_filter.2 ⟨he, hwarning⟩
    rw [hwarnings] at hmem
    obtain ⟨v, hv, hsome⟩ := List.mem_filterMap.1 hmem
    exact ⟨v, hv, hsome, message_of_warning? hsome⟩

/-- The last variable brings the token of the first one back. -/
def restoring : Variables :=
  .ofList [⟨"A".toList, "1".toList⟩, ⟨"S".toList, "${S}!".toList⟩, ⟨"B".toList, "${A}".toList⟩]

/-- The first token is left because of the last variable, the second one because of its value, and
only the second one is warned about. -/
theorem exhausted_or_warned_restored :
    (∃ u, [⟨"A".toList, "1".toList⟩, u].Sublist restoring.toList ∧
      0 < (substitute "${A}${S}${B}".toList restoring).countOf u.key) ∧
    (run "${A}${S}${B}".toList restoring).2.filter Event.isWarning =
      [.selfReference "S".toList] := by
  obtain ⟨hreasons, hwarnings, -⟩ := exhausted_or_warned "${A}${S}${B}".toList restoring
  constructor
  · have hleft := hreasons ⟨"A".toList, "1".toList⟩ (by decide) (by decide)
    exact (hleft.resolve_left (by decide)).resolve_left (by decide +kernel)
  · rw [hwarnings]
    decide

/-- Beginnings of the token of `A`, one after the other, with a single closing brace. -/
def unclosed (n : Nat) : Text := (List.replicate n ['$', '{', 'A']).flatten ++ ['}']

-- With a closing brace as its value, each pass closes one more: 64 passes are enough for 64 of
-- them.
example : (run (unclosed 64) (.ofList [⟨['A'], ['}']⟩])).2.filter Event.isWarning = [] ∧
    (run (unclosed 65) (.ofList [⟨['A'], ['}']⟩])).2.filter Event.isWarning =
      [.passLimit ['A'] 64] := by
  decide +kernel

end EnvTemplates.Substitution
