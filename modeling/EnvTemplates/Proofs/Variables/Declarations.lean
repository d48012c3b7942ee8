import EnvTemplates.Proofs.Text.Cutting
import EnvTemplates.Proofs.Text.Trimming
import EnvTemplates.Variables

/-!
# What a text declares

The lines of a text are what stands between its line feeds, and what a line says is its core without
the blanks around it. It says nothing if the core is empty or a comment. Otherwise it declares one
variable, with the key before the first `=` and the value behind it.

`Reads` says this of all lines, in order, and the declarations of a text are what its lines read as
(`declarations_eq_iff`).
-/

namespace EnvTemplates

/-! ### Lines -/

/-- A text is made of lines, with a line feed between any two of them and none in them. -/
structure Text.IsSplit (text : Text) (lines : List Text) : Prop where
  ne_nil : lines ≠ []
  text_eq : text = ['\n'].intercalate lines
  free : ∀ line ∈ lines, '\n' ∉ line

theorem Text.lines_eq_iff {text : Text} {ls : List Text} : text.lines = ls ↔ IsSplit text ls := by
  have hlines : text.lines = text.splitOn '\n' := fields_eq_splitOnP text
  constructor
  · rintro rfl
    refine ⟨?_, ?_, fun line hline hmem => ?_⟩
    · rw [hlines]
      exact List.splitOnP_ne_nil _ _
    · rw [hlines]
      exact (List.intercalate_splitOn '\n').symm
    · exact absurd (not_sep_of_mem_fields hline _ hmem) (by simp)
  · rintro ⟨hne, rfl, hfree⟩
    rw [hlines]
    exact List.splitOn_intercalate '\n' hfree hne

theorem Text.lines_of_oneLine {line : Text} (h : '\n' ∉ line) : line.lines = [line] := by
  rw [Text.lines_eq_iff]
  refine ⟨List.cons_ne_nil _ _, List.intercalate_singleton.symm, fun other hother => ?_⟩
  rw [List.mem_singleton.1 hother]
  exact h

theorem Text.lines_append (a b : Text) : Text.lines (a ++ '\n' :: b) = a.lines ++ b.lines := by
  simp only [Text.lines, fields_eq_splitOnP]
  exact List.splitOnP_append_cons a b rfl

/-! ### What a line says -/

/-- The core of a line is empty, or a comment. -/
def SaysNothing (core : Text) : Prop := core = [] ∨ core.head? = some '#'

/-- The core of a line declares a variable: the key ends at the first `=`, and without one it is all
that there is. -/
structure Variable.IsDeclared (v : Variable) (core : Text) : Prop where
  key : '=' ∉ v.key
  core_eq : core = v.toDeclaration ∨ core = v.key ∧ v.value = []

theorem Variable.ofDeclaration_eq_iff {core : Text} {v : Variable} :
    ofDeclaration core = v ↔ v.IsDeclared core := by
  constructor
  · rintro rfl
    refine ⟨fun hmem => ?_, ?_⟩
    · exact absurd (List.mem_takeWhile_imp hmem) (by simp)
    · have hsplit : core.takeWhile (· != '=') ++ core.dropWhile (· != '=') = core :=
        List.takeWhile_append_dropWhile
      cases hrest : core.dropWhile (· != '=') with
      | nil =>
        rw [hrest, List.append_nil] at hsplit
        refine Or.inr ⟨hsplit.symm, ?_⟩
        simp only [ofDeclaration, hrest, List.drop_nil]
      | cons c rest =>
        have hhead := List.head?_dropWhile_not (· != '=') core
        rw [hrest] at hhead hsplit
        obtain rfl : c = '=' := by simpa using hhead
        left
        simp only [toDeclaration, ofDeclaration, hrest]
        exact hsplit.symm
  · rintro ⟨hkey, hcore⟩
    have hbefore : ∀ c ∈ v.key, (c != '=') = true := by
      intro c hc
      rw [bne_iff_ne]
      rintro rfl
      exact hkey hc
    rcases hcore with rfl | ⟨rfl, hvalue⟩
    · rw [ofDeclaration, toDeclaration, List.takeWhile_append_of_pos hbefore,
        List.dropWhile_append_of_pos hbefore]
      simp
    · rw [ofDeclaration, List.takeWhile_eq_self_iff.2 hbefore, List.dropWhile_eq_nil_iff.2 hbefore,
        List.drop_nil, ← hvalue]

namespace Variables

/-- Lines read as declarations, one after the other. -/
inductive Reads : List Text → List Variable → Prop
  | nil : Reads [] []
  | skipped {line core : Text} {lines : List Text} {declared : List Variable} :
      Text.Trims line core → SaysNothing core → Reads lines declared →
      Reads (line :: lines) declared
  | declared {line core : Text} {v : Variable} {lines : List Text} {declared : List Variable} :
      Text.Trims line core → ¬ SaysNothing core → v.IsDeclared core → Reads lines declared →
      Reads (line :: lines) (v :: declared)

theorem declaration?_eq_none {line : Text} (h : SaysNothing line.trim) :
    declaration? line = none := by
  rw [declaration?]
  rcases h with hnil | hcomment
  · rw [hnil]
  · obtain ⟨rest, hrest⟩ := List.head?_eq_some_iff.1 hcomment
    simp only [hrest]

theorem declaration?_eq_some {line : Text} (h : ¬ SaysNothing line.trim) :
    declaration? line = some (Variable.ofDeclaration line.trim) := by
  rw [declaration?]
  split
  · next hnil => exact absurd (Or.inl hnil) h
  · next rest hrest => exact absurd (Or.inr (by rw [hrest]; rfl)) h
  · next c rest _ hrest => rw [hrest]

theorem filterMap_declaration?_eq_iff {lines : List Text} : ∀ {declared : List Variable},
    lines.filterMap declaration? = declared ↔ Reads lines declared := by
  induction lines with
  | nil =>
    intro declared
    constructor
    · rintro rfl
      exact .nil
    · rintro ⟨⟩
      rfl
  | cons line lines ih =>
    intro declared
    constructor
    · rintro rfl
      have htrims := Text.trims_trim line
      by_cases hnothing : SaysNothing line.trim
      · rw [List.filterMap_cons_none (declaration?_eq_none hnothing)]
        exact .skipped htrims hnothing (ih.1 rfl)
      · rw [List.filterMap_cons_some (declaration?_eq_some hnothing)]
        exact .declared htrims hnothing (Variable.ofDeclaration_eq_iff.1 rfl) (ih.1 rfl)
    · intro hreads
      cases hreads with
      | skipped htrims hnothing hrest =>
        rw [← htrims.trim_eq] at hnothing
        rw [List.filterMap_cons_none (declaration?_eq_none hnothing), ih.2 hrest]
      | declared htrims hnothing hdeclared hrest =>
        rw [← htrims.trim_eq] at hnothing hdeclared
        rw [List.filterMap_cons_some (declaration?_eq_some hnothing), ih.2 hrest,
          Variable.ofDeclaration_eq_iff.2 hdeclared]

/-- **The declarations of a text** are what its lines read as. -/
theorem declarations_eq_iff {text : Text} {declared : List Variable} :
    declarations text = declared ↔ ∃ lines, text.IsSplit lines ∧ Reads lines declared := by
  rw [declarations, filterMap_declaration?_eq_iff]
  constructor
  · intro hreads
    exact ⟨text.lines, Text.lines_eq_iff.1 rfl, hreads⟩
  · rintro ⟨lines, hsplit, hreads⟩
    rw [Text.lines_eq_iff.2 hsplit]
    exact hreads

theorem declarations_append (a b : Text) :
    declarations (a ++ '\n' :: b) = declarations a ++ declarations b := by
  rw [declarations, Text.lines_append, List.filterMap_append]
  rfl

end Variables

end EnvTemplates
