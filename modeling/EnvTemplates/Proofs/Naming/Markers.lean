import EnvTemplates.Naming
import EnvTemplates.Proofs.Text.Cutting
import EnvTemplates.Proofs.Text.Pieces

/-!
# Which marker decides

The style of an output name is that of the first marker in the order Pascal, lower, upper that
occurs in the whole name of the template, with its suffix. What is replaced stands in the name
without the suffix. So a marker that the suffix brings in, or completes, can change the style
although it is gone from the result (`suffix_changes_style`). The suffix matters in no other way:
the name without it and the markers in the whole name determine the result (`outputName_append`).
-/

namespace EnvTemplates

namespace Marker

/-- A marker decides the style of a name if its text occurs in the name and that of no marker before
it does. -/
def Decides : Marker → Text → Prop
  | .pascal, name => pascal.text <:+: name
  | .lower, name => ¬ pascal.text <:+: name ∧ lower.text <:+: name
  | .upper, name => ¬ pascal.text <:+: name ∧ ¬ lower.text <:+: name ∧ upper.text <:+: name

instance : (m : Marker) → (name : Text) → Decidable (m.Decides name)
  | .pascal, name => inferInstanceAs (Decidable (pascal.text <:+: name))
  | .lower, name =>
    inferInstanceAs (Decidable (¬ pascal.text <:+: name ∧ lower.text <:+: name))
  | .upper, name =>
    inferInstanceAs (Decidable (¬ pascal.text <:+: name ∧ ¬ lower.text <:+: name ∧
      upper.text <:+: name))

/-- A name without markers has no style; any other has that of the marker that decides. -/
theorem detect?_cases (name : Text) :
    (detect? name = none ∧ ∀ m : Marker, ¬ m.text <:+: name) ∨
      ∃ m : Marker, detect? name = some m ∧ m.Decides name := by
  have hoccurs : ∀ m : Marker, occursIn m.text name = decide (m.text <:+: name) := by
    intro m
    rw [Bool.eq_iff_iff, occursIn_iff, decide_eq_true_iff]
  by_cases hpascal : pascal.text <:+: name
  · exact Or.inr ⟨.pascal, by simp [detect?, all, hoccurs, hpascal], hpascal⟩
  · by_cases hlower : lower.text <:+: name
    · exact Or.inr ⟨.lower, by simp [detect?, all, hoccurs, hpascal, hlower], hpascal, hlower⟩
    · by_cases hupper : upper.text <:+: name
      · exact Or.inr ⟨.upper, by simp [detect?, all, hoccurs, hpascal, hlower, hupper], hpascal,
          hlower, hupper⟩
      · refine Or.inl ⟨by simp [detect?, all, hoccurs, hpascal, hlower, hupper], fun m => ?_⟩
        cases m with
        | pascal => exact hpascal
        | lower => exact hlower
        | upper => exact hupper

theorem Decides.infix {m : Marker} {name : Text} (h : m.Decides name) : m.text <:+: name := by
  cases m with
  | pascal => exact h
  | lower => exact h.2
  | upper => exact h.2.2

/-- Only one marker decides. -/
theorem Decides.eq {m n : Marker} {name : Text} (hm : m.Decides name) (hn : n.Decides name) :
    m = n := by
  cases m with
  | pascal =>
    cases n with
    | pascal => rfl
    | lower => exact absurd hm hn.1
    | upper => exact absurd hm hn.1
  | lower =>
    cases n with
    | pascal => exact absurd hn hm.1
    | lower => rfl
    | upper => exact absurd hm.2 hn.2.1
  | upper =>
    cases n with
    | pascal => exact absurd hn hm.1
    | lower => exact absurd hn.2 hm.2.1
    | upper => rfl

theorem detect?_of_decides {m : Marker} {name : Text} (h : m.Decides name) :
    detect? name = some m := by
  rcases detect?_cases name with ⟨-, hnone⟩ | ⟨n, hdetect, hn⟩
  · exact absurd h.infix (hnone m)
  · rw [hdetect, hn.eq h]

theorem detect?_of_none {name : Text} (h : ∀ m : Marker, ¬ m.text <:+: name) :
    detect? name = none := by
  rcases detect?_cases name with ⟨hdetect, -⟩ | ⟨n, -, hn⟩
  · exact hdetect
  · exact absurd hn.infix (h n)

/-- Names with the same markers have the same style. -/
theorem detect?_congr {a b : Text} (h : ∀ m : Marker, m.text <:+: a ↔ m.text <:+: b) :
    detect? a = detect? b := by
  rcases detect?_cases a with ⟨hdetect, hnone⟩ | ⟨m, hdetect, hm⟩
  · rw [hdetect, detect?_of_none fun m hin => hnone m ((h m).2 hin)]
  · rw [hdetect]
    symm
    apply detect?_of_decides
    cases m <;> simpa only [Decides, h] using hm

end Marker

/-! ### Output names -/

theorem withoutSuffix_append (stripped suffix : Text) :
    withoutSuffix suffix (stripped ++ suffix) = stripped := by
  rw [withoutSuffix, dropEnd?_eq_some_iff.2 rfl]
  rfl

/-- A name is written in a style: what stands between the markers, in any case, stays, and each
marker becomes the styled name of the environment between two dots. -/
def IsStyled (m : Marker) (environment name output : Text) : Prop :=
  ∃ ps, Text.Cuts Char.toLower Marker.lower.text name ps ∧
    output = List.intercalate ('.' :: m.style environment ++ ['.']) ps

theorem isStyled_iff {m : Marker} {environment name output : Text} :
    IsStyled m environment name output ↔
      output = Text.replaceIgnoringCase name Marker.lower.text
        ('.' :: m.style environment ++ ['.']) := by
  have hne : Marker.lower.text ≠ [] := List.cons_ne_nil _ _
  simp only [IsStyled, Text.cuts_iff hne, exists_eq_left', Text.replaceIgnoringCase]

/-- **The style is decided by the whole name, and the suffix is never rewritten.** Without a marker
in the whole name the result is the name without the suffix; otherwise that name is written in the
style of the first marker of the whole name. Suffixes that give the whole name the same markers give
the same result. -/
theorem outputName_append (stripped suffix environment : Text) :
    ((∀ m : Marker, ¬ m.text <:+: stripped ++ suffix) →
      outputName (stripped ++ suffix) environment suffix = stripped) ∧
    (∀ m : Marker, m.Decides (stripped ++ suffix) →
      IsStyled m environment stripped (outputName (stripped ++ suffix) environment suffix)) ∧
    ∀ suffix' : Text,
      (∀ m : Marker, m.text <:+: stripped ++ suffix ↔ m.text <:+: stripped ++ suffix') →
      outputName (stripped ++ suffix) environment suffix =
        outputName (stripped ++ suffix') environment suffix' := by
  refine ⟨fun hnone => ?_, fun m hm => ?_, fun suffix' hsame => ?_⟩
  · rw [outputName, Marker.detect?_of_none hnone, withoutSuffix_append]
  · rw [outputName, Marker.detect?_of_decides hm, withoutSuffix_append, isStyled_iff]
  · rw [outputName, outputName, Marker.detect?_congr hsame, withoutSuffix_append,
      withoutSuffix_append]

/-- The last dot of the lowercase marker comes from the suffix. A dot alone as the suffix does the
same. -/
theorem outputName_append_completed :
    IsStyled .lower "prod".toList "a.ENV.b.env".toList
        (outputName ("a.ENV.b.env".toList ++ ".envt".toList) "prod".toList ".envt".toList) ∧
      outputName ("a.ENV.b.env".toList ++ ".envt".toList) "prod".toList ".envt".toList =
        outputName ("a.ENV.b.env".toList ++ ".".toList) "prod".toList ".".toList ∧
      outputName ("a.eNv.b".toList ++ ".envt".toList) "prod".toList ".envt".toList =
        "a.eNv.b".toList := by
  obtain ⟨-, hstyled, hsame⟩ :=
    outputName_append "a.ENV.b.env".toList ".envt".toList "prod".toList
  refine ⟨hstyled .lower (by decide), hsame ".".toList ?_, ?_⟩
  · intro m
    cases m <;> decide
  · apply (outputName_append "a.eNv.b".toList ".envt".toList "prod".toList).1
    intro m
    cases m <;> decide

/-- The name without its suffix does not decide the style: here its only marker asks for capitals,
and the suffix completes another one that comes first. -/
theorem suffix_changes_style :
    ¬ ∀ stripped suffix environment : Text,
      ((∀ m : Marker, ¬ m.text <:+: stripped) →
        outputName (stripped ++ suffix) environment suffix = stripped) ∧
      ∀ m : Marker, m.Decides stripped →
        IsStyled m environment stripped
          (outputName (stripped ++ suffix) environment suffix) := by
  intro h
  have hupper : Marker.upper.Decides "a.ENV.b.env".toList := by decide
  have hstyled := (h "a.ENV.b.env".toList ".envt".toList "prod".toList).2 .upper hupper
  rw [isStyled_iff] at hstyled
  exact absurd hstyled (by decide +kernel)

end EnvTemplates
