import EnvTemplates.Proofs.Naming
import EnvTemplates.Proofs.Naming.Markers

/-!
# What is left of a template's name

The name of an output is what is left of the template's name without its suffix, with the markers
replaced. Nothing but dots may be left: of a name that is the suffix alone, or the suffix behind a
dot or two, or of a single marker that is replaced by nothing between its dots. `LeavesDots` says
when, and in all other cases the output has a name that an entry of a directory can have
(`isName_outputName_iff`).

A marker is replaced by nothing only in Pascal case, which keeps the ASCII letters and digits of the
environment's name, if there are any (`style_eq_nil_iff`).
-/

namespace EnvTemplates

/-! ### Styles that leave nothing -/

namespace Text

variable {t : Text}

/-- Mapping a character gives some characters, if no expansion is empty. -/
theorem mapCase_ne_nil {expansions : List (Nat × List Nat)} {runs : List CaseData.Run}
    (h : ∀ e ∈ expansions, e.2 ≠ []) (c : Char) : mapCase expansions runs c ≠ [] := by
  rw [mapCase]
  split
  · next expansion hlookup =>
    obtain ⟨before, after, hsplit, -⟩ := List.lookup_eq_some_iff.1 hlookup
    have hmem : (c.toNat, expansion) ∈ expansions := by
      rw [hsplit]
      exact List.mem_append_right _ List.mem_cons_self
    rw [ne_eq, List.map_eq_nil_iff]
    exact h _ hmem
  · split <;> exact List.cons_ne_nil _ _

theorem lower_ne_nil (h : t ≠ []) : t.lower ≠ [] := by
  obtain ⟨c, rest, rfl⟩ := List.exists_cons_of_ne_nil h
  rw [lower, lowerAfter]
  apply List.append_ne_nil_of_left_ne_nil
  split
  · exact List.cons_ne_nil _ _
  · exact mapCase_ne_nil (by decide) c

theorem upper_ne_nil (h : t ≠ []) : t.upper ≠ [] := by
  obtain ⟨c, rest, rfl⟩ := List.exists_cons_of_ne_nil h
  rw [upper, List.flatMap_cons]
  exact List.append_ne_nil_of_left_ne_nil (mapCase_ne_nil (by decide +kernel) c) _

end Text

/-- Only Pascal case can leave nothing of the name of an environment. -/
theorem Marker.style_eq_nil_iff {m : Marker} {environment : Text} (h : environment ≠ []) :
    m.style environment = [] ↔ m = .pascal ∧ ∀ c ∈ environment, c.isAlphanum = false := by
  cases m with
  | pascal => simp only [style, Text.pascalCase_eq_nil_iff, true_and]
  | lower => simp only [style, Text.lower_ne_nil h, reduceCtorEq, false_and]
  | upper => simp only [style, Text.upper_ne_nil h, reduceCtorEq, false_and]

theorem Marker.detect?_eq_pascal_iff {name : Text} :
    detect? name = some .pascal ↔ Marker.pascal.text <:+: name := by
  constructor
  · intro h
    rcases detect?_cases name with ⟨hnone, -⟩ | ⟨m, hdetect, hm⟩
    · rw [hnone] at h
      cases h
    · rw [hdetect, Option.some.injEq] at h
      rw [← h]
      exact hm.infix
  · exact fun h => detect?_of_decides (m := .pascal) h

/-! ### Nothing but dots -/

/-- The names that no entry of a directory can have: no name at all, and the two that stand for a
directory. -/
def dotNames : List Text := [[], ['.'], ['.', '.']]

theorem Path.isName_encode_iff {name : Text} (h : '/' ∉ name) :
    IsName (Utf8.encode name) ↔ name ∉ dotNames := by
  have hnil : Utf8.encode name = [] ↔ name = [] := Utf8.encode_injective.eq_iff' rfl
  have hdot : Utf8.encode name = dot ↔ name = ['.'] := Utf8.encode_injective.eq_iff' rfl
  have hdots : Utf8.encode name = dots ↔ name = ['.', '.'] := Utf8.encode_injective.eq_iff' rfl
  rw [IsName, isIdle, slash_mem_encode_iff, dotNames]
  simp [hnil, hdot, hdots, h, and_assoc]

/-- Nothing but dots is left of the name of a template: its own name without the suffix is no more
than that, or it is a marker alone, in any case, and the whole name asks for Pascal case, which
leaves nothing of the environment's name. -/
def LeavesDots (template environment suffix : Text) : Prop :=
  withoutSuffix suffix template ∈ dotNames ∨
    (withoutSuffix suffix template).map Char.toLower = Marker.lower.text ∧
      Marker.pascal.text <:+: template ∧ ∀ c ∈ environment, c.isAlphanum = false

instance (template environment suffix : Text) :
    Decidable (LeavesDots template environment suffix) :=
  inferInstanceAs (Decidable (_ ∨ _))

theorem length_le_of_mem_dotNames {name : Text} (h : name ∈ dotNames) : name.length ≤ 2 := by
  revert name
  decide

/-- Writing a style between the pieces of a name gives nothing but dots if the name is no more than
that, or if it is a marker alone and nothing is written. -/
theorem intercalate_mem_dotNames_iff {name style : Text} {ps : List Text}
    (h : Text.Cuts Char.toLower Marker.lower.text name ps) :
    List.intercalate ('.' :: style ++ ['.']) ps ∈ dotNames ↔ name ∈ dotNames ∨
      name.map Char.toLower = Marker.lower.text ∧ style = [] := by
  have htoken : Marker.lower.text.map Char.toLower = Marker.lower.text := by decide
  cases h with
  | last hfree =>
    rw [htoken] at hfree
    rw [List.intercalate_singleton]
    refine ⟨Or.inl, fun h => h.elim id ?_⟩
    rintro ⟨hmarker, -⟩
    exact absurd (hmarker ▸ List.infix_rfl) hfree
  | @found piece occurrence rest more hsame _ hrest =>
    have hrestNil : List.intercalate ('.' :: style ++ ['.']) more = [] ↔ rest = [] :=
      hrest.intercalate_eq_nil_iff (List.cons_ne_nil _ _) (List.cons_ne_nil _ _)
    obtain ⟨next, others, rfl⟩ := List.exists_cons_of_ne_nil hrest.ne_nil
    have hlength : occurrence.length = 5 := by
      rw [← List.length_map Char.toLower, hsame]
      rfl
    rw [List.intercalate_cons_cons]
    constructor
    · intro hmem
      -- The dots around the style are all that there is.
      have hle := length_le_of_mem_dotNames hmem
      simp only [List.length_append, List.length_cons, List.length_nil] at hle
      obtain rfl : piece = [] := List.eq_nil_of_length_eq_zero (by omega)
      obtain rfl : style = [] := List.eq_nil_of_length_eq_zero (by omega)
      obtain rfl : rest = [] := hrestNil.1 (List.eq_nil_of_length_eq_zero (by omega))
      right
      rw [List.nil_append, List.append_nil, hsame, htoken]
      exact ⟨rfl, rfl⟩
    · rintro (hmem | ⟨hmarker, rfl⟩)
      · have hle := length_le_of_mem_dotNames hmem
        simp only [List.length_append, hlength] at hle
        omega
      · have hall := congrArg List.length hmarker
        simp only [List.length_map, List.length_append, hlength] at hall
        have hmarkerLength : Marker.lower.text.length = 5 := rfl
        obtain rfl : piece = [] := List.eq_nil_of_length_eq_zero (by omega)
        obtain rfl : rest = [] := List.eq_nil_of_length_eq_zero (by omega)
        rw [hrestNil.2 rfl]
        decide

/-- **When nothing but dots is left** of the name of a template. -/
theorem outputName_mem_dotNames_iff {template environment suffix : Text}
    (henvironment : environment ≠ []) :
    outputName template environment suffix ∈ dotNames ↔ LeavesDots template environment suffix := by
  rw [outputName, LeavesDots, ← Marker.detect?_eq_pascal_iff]
  cases hdetect : Marker.detect? template with
  | none => simp only [reduceCtorEq, false_and, and_false, or_false]
  | some m =>
    obtain ⟨ps, hcuts, hreplaced⟩ := isStyled_iff.2 (Eq.refl (Text.replaceIgnoringCase
      (withoutSuffix suffix template) Marker.lower.text ('.' :: m.style environment ++ ['.'])))
    simp only [hreplaced, intercalate_mem_dotNames_iff hcuts, Marker.style_eq_nil_iff henvironment,
      Option.some.injEq]

/-- **An output has the name of an entry**, unless nothing but dots is left. -/
theorem isName_outputName_iff {template environment suffix : Text} (htemplate : '/' ∉ template)
    (hslash : '/' ∉ environment) (henvironment : environment ≠ []) :
    Path.IsName (Utf8.encode (outputName template environment suffix)) ↔
      ¬ LeavesDots template environment suffix := by
  rw [Path.isName_encode_iff (slash_notMem_outputName suffix htemplate hslash),
    outputName_mem_dotNames_iff henvironment]

end EnvTemplates
