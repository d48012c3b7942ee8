import EnvTemplates.Text.Basic

/-!
# Cutting lists

`fields` is the library's `splitOnP` (`fields_eq_splitOnP`), whose lemmas apply to it. No field
contains a separator (`not_sep_of_mem_fields`), and together they hold all else (`flatten_fields`).
`dropStart?` and `dropEnd?` decide prefixes and suffixes (`dropStart?_eq_some_iff`,
`dropEnd?_eq_some_iff`).
-/

namespace EnvTemplates

variable {α : Type} {sep : α → Bool}

theorem fields_eq_splitOnP (l : List α) : fields sep l = l.splitOnP sep := by
  induction l with
  | nil => rfl
  | cons a l ih =>
    rw [fields, ih, List.splitOnP_cons_eq_if_modifyHead]
    split
    · rfl
    · cases hl : l.splitOnP sep with
      | nil => exact absurd hl (List.splitOnP_ne_nil sep l)
      | cons field more => rfl

theorem not_sep_of_mem_fields {field : List α} :
    ∀ {l : List α}, field ∈ fields sep l → ∀ a ∈ field, sep a = false
  | [], h => by
    rw [fields, List.mem_singleton] at h
    simp [h]
  | a :: l, h => by
    have ih : ∀ f ∈ fields sep l, ∀ b ∈ f, sep b = false := fun f hf => not_sep_of_mem_fields hf
    rw [fields] at h
    split at h
    · rcases List.mem_cons.1 h with rfl | h
      · simp
      · exact ih field h
    · -- the element goes to the front of the first field
      next ha =>
      have hsep : sep a = false := by simpa using ha
      split at h
      · rw [List.mem_singleton] at h
        simp [h, hsep]
      · next first more hfields =>
        rw [hfields] at ih
        rcases List.mem_cons.1 h with rfl | h
        · exact List.forall_mem_cons.2 ⟨hsep, ih first List.mem_cons_self⟩
        · exact ih field (List.mem_cons_of_mem _ h)

/-- The fields are all of a list but its separators. -/
theorem flatten_fields (l : List α) : (fields sep l).flatten = l.filter fun a => !sep a := by
  induction l with
  | nil => rfl
  | cons a l ih =>
    rw [fields]
    cases ha : sep a with
    | true =>
      rw [if_pos rfl, List.flatten_cons, List.nil_append, ih,
        List.filter_cons_of_neg (by simp [ha])]
    | false =>
      rw [if_neg Bool.false_ne_true, List.filter_cons_of_pos (by simp [ha]), ← ih]
      split
      · next hnil => rw [hnil]; rfl
      · next field more hfields => rw [hfields]; rfl

section Ends

variable [DecidableEq α]

theorem dropStart?_eq_some_iff {rest : List α} :
    ∀ {start l : List α}, dropStart? start l = some rest ↔ l = start ++ rest
  | [], l => by rw [dropStart?, Option.some.injEq, List.nil_append]
  | a :: start, [] => by simp [dropStart?]
  | a :: start, b :: l => by
    rw [dropStart?, List.cons_append, List.cons.injEq]
    split
    · next hab => rw [dropStart?_eq_some_iff, hab, eq_self, true_and]
    · next hab =>
      have hba : ¬ b = a := fun h => hab h.symm
      simp [hba]

theorem dropEnd?_eq_some_iff {ending l rest : List α} :
    dropEnd? ending l = some rest ↔ l = rest ++ ending := by
  rw [dropEnd?, Option.map_eq_some_iff]
  simp only [dropStart?_eq_some_iff]
  constructor
  · rintro ⟨front, hl, rfl⟩
    rw [← List.reverse_reverse l, hl, List.reverse_append, List.reverse_reverse]
  · rintro rfl
    exact ⟨rest.reverse, List.reverse_append, List.reverse_reverse rest⟩

theorem isSome_dropEnd?_iff {ending l : List α} : (dropEnd? ending l).isSome ↔ ending <:+ l := by
  rw [dropEnd?, Option.isSome_map, Option.isSome_iff_exists, ← List.reverse_prefix]
  simp only [dropStart?_eq_some_iff, List.IsPrefix, eq_comm]

end Ends

end EnvTemplates
