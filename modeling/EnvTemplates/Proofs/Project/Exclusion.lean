import Mathlib.Data.List.DropRight
import EnvTemplates.Proofs.Project.Cycles

/-!
# Excluding more

A rule that takes nothing back only ever excludes, whatever rules stand before it
(`excludes_append`). A walk that passes over more enters fewer directories, so it comes to none that
it could not have entered before, and what it selects was selected before
(`IsSelected.of_excluding`). Its own list is hence a part of the longer one, in the same order: both
are in the order of paths.
-/

namespace EnvTemplates

/-! ### Rules behind others -/

namespace ExcludeRule

variable {rules more : List ExcludeRule} {rule : ExcludeRule} {line : Text}
  {lines others : List Text}

/-- **Rules that take nothing back only add to what is excluded.** -/
theorem excludes_append (rules : List ExcludeRule) (hmore : ∀ rule ∈ more, rule.negated = false)
    (path : Bytes) (isDirectory : Bool) : excludes (rules ++ more) path isDirectory =
      (excludes rules path isDirectory || excludes more path isDirectory) := by
  rw [excludes, excludes, excludes, List.reverse_append, List.find?_append]
  cases hfind : more.reverse.find? fun rule => rule.applies path isDirectory with
  | none => rw [Option.none_or, Bool.or_false]
  | some rule =>
    have hrule := hmore rule (List.mem_reverse.1 (List.mem_of_find?_eq_some hfind))
    simp only [Option.some_or, hrule, Bool.not_false, Bool.or_true]

theorem significant_prefix (line : Text) : significant line <+: line := by
  rw [significant]
  split
  · exact List.prefix_rfl
  · exact List.rdropWhile_prefix Text.isBlank line

/-- Only a line with a mark in front takes paths back. -/
theorem not_negated_of_parse (h : parse line = .ok (some rule)) (hline : line.head? ≠ some '!') :
    rule.negated = false := by
  have hmark : (significant line).head? ≠ some '!' := by
    intro hmark
    obtain ⟨rest, hrest⟩ := significant_prefix line
    rw [← hrest, List.head?_append, hmark, Option.some_or] at hline
    exact hline rfl
  simp only [parse] at h
  split at h
  · cases h
  · split at h
    · cases h
    · split at h
      · cases h
      · cases h
        simp only [hmark, decide_false, Bool.and_false]

theorem parseLines_cons_eq_ok : parseLines (line :: lines) = .ok rules ↔
    ∃ rule rest, parse line = .ok rule ∧ parseLines lines = .ok rest ∧
      rules = rule.toList ++ rest := by
  rw [parseLines]
  cases parse line with
  | error problem => simp
  | ok rule =>
    cases parseLines lines with
    | error problem => simp [Except.map]
    | ok rest => simp [Except.map, eq_comm]

theorem parseLines_append (h : parseLines lines = .ok rules)
    (hothers : parseLines others = .ok more) :
    parseLines (lines ++ others) = .ok (rules ++ more) := by
  induction lines generalizing rules with
  | nil =>
    cases h
    exact hothers
  | cons line lines ih =>
    obtain ⟨rule, rest, hrule, hrest, rfl⟩ := parseLines_cons_eq_ok.1 h
    exact parseLines_cons_eq_ok.2 ⟨rule, _, hrule, ih hrest, List.append_assoc _ _ _⟩

theorem not_negated_of_parseLines (h : parseLines lines = .ok rules)
    (hlines : ∀ line ∈ lines, line.head? ≠ some '!') : ∀ rule ∈ rules, rule.negated = false := by
  induction lines generalizing rules with
  | nil =>
    cases h
    exact fun _ h => absurd h List.not_mem_nil
  | cons line lines ih =>
    obtain ⟨rule, rest, hrule, hrest, rfl⟩ := parseLines_cons_eq_ok.1 h
    obtain ⟨hline, hlines⟩ := List.forall_mem_cons.1 hlines
    refine List.forall_mem_append.2 ⟨fun r hr => ?_, ih hrest hlines⟩
    rw [Option.mem_toList] at hr
    rw [hr] at hrule
    exact not_negated_of_parse hrule hline

/-- Rules can be applied if all lines are sound and no pattern is too deep. -/
theorem parseAll_eq_ok_iff : parseAll lines = .ok rules ↔
    parseLines lines = .ok rules ∧ ∀ rule ∈ rules, rule.glob.isTooDeep = false := by
  rw [parseAll]
  cases parseLines lines with
  | error problem => simp [bind, Except.bind]
  | ok read =>
    simp only [bind, Except.bind]
    split
    · next hdeep =>
      simp only [reduceCtorEq, false_iff, Except.ok.injEq]
      rintro ⟨rfl, hshallow⟩
      obtain ⟨rule, hrule, htooDeep⟩ := List.any_eq_true.1 hdeep
      rw [hshallow rule hrule] at htooDeep
      cases htooDeep
    · next hshallow =>
      rw [List.any_eq_true] at hshallow
      constructor
      · rintro ⟨⟩
        refine ⟨rfl, fun rule hrule => Bool.eq_false_iff.2 fun hdeep => ?_⟩
        exact hshallow ⟨rule, hrule, hdeep⟩
      · rintro ⟨⟨⟩, -⟩
        rfl

theorem parseAll_append (h : parseAll lines = .ok rules) (hothers : parseAll others = .ok more) :
    parseAll (lines ++ others) = .ok (rules ++ more) := by
  obtain ⟨hrules, hshallow⟩ := parseAll_eq_ok_iff.1 h
  obtain ⟨hmore, hshallow'⟩ := parseAll_eq_ok_iff.1 hothers
  exact parseAll_eq_ok_iff.2
    ⟨parseLines_append hrules hmore, List.forall_mem_append.2 ⟨hshallow, hshallow'⟩⟩

end ExcludeRule

/-! ### Walks that pass over more -/

namespace Walk

variable {s : Setting} {more : Path → Bool → Bool} {path root : Path} {names : List Name}
  {cause : FileError}

/-- A walk that also passes over what `more` says. -/
def Setting.excluding (s : Setting) (more : Path → Bool → Bool) : Setting :=
  { s with
    excluded := fun path isDirectory => s.excluded path isDirectory || more path isDirectory }

theorem kept_of_excluding {isDirectory : Bool}
    (h : (s.excluding more).excluded path isDirectory = false) :
    s.excluded path isDirectory = false :=
  (Bool.or_eq_false_iff.1 h).1

/-- What is entered although more is passed over is entered anyway. -/
theorem Enters.of_excluding : ∀ {names : List Name} {path : Path},
    Enters (s.excluding more) path names → Enters s path names
  | [], _, h => h
  | _ :: _, _, h => ⟨h.1, kept_of_excluding h.2.1, Enters.of_excluding h.2.2⟩

/-- **No cycle is new.** -/
theorem IsCycle.of_excluding (h : IsCycle (s.excluding more) root names) : IsCycle s root names :=
  ⟨h.enters.of_excluding, h.repeats⟩

/-- What is entered can be listed, if it could be when more was entered. -/
theorem IsUnlisted.of_excluding (h : IsUnlisted (s.excluding more) root names cause) :
    IsUnlisted s root names cause :=
  ⟨h.enters.of_excluding, h.refusal⟩

/-- **Nothing that is selected is new.** -/
theorem IsSelected.of_excluding (h : IsSelected (s.excluding more) root names) :
    IsSelected s root names where
  ne_nil := h.ne_nil
  entries := h.entries
  directories front rest hfront hrest heq :=
    ⟨(h.directories front rest hfront hrest heq).1,
      kept_of_excluding (h.directories front rest hfront hrest heq).2⟩
  file := h.file
  kept := kept_of_excluding h.kept
  suffix := h.suffix

/-- **A walk that passes over more finds no more**, and it does not fail for it. -/
theorem templates_excluding {found : List Path} (more : Path → Bool → Bool)
    (h : (templates s root).result = .ok found) :
    ∃ found', (templates (s.excluding more) root).result = .ok found' ∧
      found'.Sublist found := by
  obtain ⟨hnone, hreadable⟩ : (∀ names, ¬ IsCycle s root names) ∧ IsReadable s root := by
    rcases templates_cases s root with ⟨-, hnone⟩ | ⟨names, herror, -⟩ | ⟨names, cause, herror, -⟩
    · exact hnone
    · rw [h] at herror
      cases herror
    · rw [h] at herror
      cases herror
  rcases templates_cases (s.excluding more) root with ⟨⟨found', hfound⟩, -⟩ | ⟨names, -, hcycle⟩ |
    ⟨names, cause, -, hunlisted⟩
  · exact ⟨found', hfound, (isExact_of_templates h).sublist (isExact_of_templates hfound)
      fun _ => IsSelected.of_excluding⟩
  · exact absurd hcycle.of_excluding (hnone names)
  · exact absurd hunlisted.of_excluding (hreadable names cause)

end Walk

/-! ### Projects -/

open Walk

/-- Rules that take nothing back make the walk of a project pass over more. -/
theorem excludedBy_append {rules more : List ExcludeRule}
    (hmore : ∀ rule ∈ more, rule.negated = false) (t : FileTree) (suffix : Text) (root : Path) :
    (⟨t, suffix, excludedBy (rules ++ more) root⟩ : Setting) =
      (⟨t, suffix, excludedBy rules root⟩ : Setting).excluding (excludedBy more root) := by
  rw [Setting.excluding, Setting.mk.injEq]
  refine ⟨rfl, rfl, ?_⟩
  funext path isDirectory
  exact ExcludeRule.excludes_append rules hmore _ isDirectory

/-- A search that finds templates has read the rules. -/
theorem parseAll_of_collect {t : FileTree} {root : Path} {options : Options} {found : List Path}
    (h : (collect t root options).result = .ok found) :
    ∃ rules, ExcludeRule.parseAll options.exclude = .ok rules := by
  cases hparse : ExcludeRule.parseAll options.exclude with
  | ok rules => exact ⟨rules, rfl⟩
  | error problem =>
    rw [collect, hparse] at h
    cases h

/-- **Excluding more never finds more.** A walk that finds some templates still comes to its end
when it passes over more, and what it finds then is a part of what it found before, in the same
order. So it is with patterns behind those of a project that take nothing back, whether or not
earlier ones do. -/
theorem collect_excluding_more :
    (∀ (s : Setting) (more : Path → Bool → Bool) (root : Path) (found : List Path),
      (templates s root).result = .ok found →
      ∃ found', (templates (s.excluding more) root).result = .ok found' ∧
        found'.Sublist found) ∧
    ∀ (t : FileTree) (root : Path) (suffix : Text) (patterns others : List Text)
      (found : List Path) (more : List ExcludeRule),
      (collect t root ⟨suffix, patterns⟩).result = .ok found →
      ExcludeRule.parseAll others = .ok more → (∀ pattern ∈ others, pattern.head? ≠ some '!') →
      ∃ found', (collect t root ⟨suffix, patterns ++ others⟩).result = .ok found' ∧
        found'.Sublist found := by
  constructor
  · intro s more root found h
    exact templates_excluding more h
  · intro t root suffix patterns others found more h hothers hmarks
    obtain ⟨rules, hrules⟩ := parseAll_of_collect h
    have hmore : ∀ rule ∈ more, rule.negated = false :=
      ExcludeRule.not_negated_of_parseLines (ExcludeRule.parseAll_eq_ok_iff.1 hothers).1 hmarks
    have hall : ExcludeRule.parseAll (patterns ++ others) = .ok (rules ++ more) :=
      ExcludeRule.parseAll_append hrules hothers
    rw [collect_eq_templates hrules] at h
    rw [collect_eq_templates hall, excludedBy_append hmore]
    exact templates_excluding _ h

/-- Passing over the directory `b` leaves at most what is found through the link to it, which
earlier patterns passed over and took back. -/
theorem collect_excluding_more_shared :
    (∃ found', (templates ((plainSetting shared ⟨Path.dot⟩).excluding fun _ isDirectory =>
        isDirectory) ⟨Path.dot⟩).result = .ok found' ∧
      found'.Sublist [.ofText "./b/a.envt".toList, .ofText "./z/a.envt".toList]) ∧
    ∃ found', (collect shared ⟨Path.dot⟩
        ⟨defaultTemplateSuffix, ["/z".toList, "!/z".toList, "/b".toList]⟩).result = .ok found' ∧
      found'.Sublist [.ofText "./b/a.envt".toList, .ofText "./z/a.envt".toList] := by
  constructor
  · exact collect_excluding_more.1 (plainSetting shared ⟨Path.dot⟩) _ ⟨Path.dot⟩ _ (by cbv)
  · exact collect_excluding_more.2 shared ⟨Path.dot⟩ defaultTemplateSuffix
      ["/z".toList, "!/z".toList] ["/b".toList] _
      [⟨false, false, ⟨.one ⟨false, [(98, 98)]⟩, 1, 0⟩⟩] (by cbv) (by cbv)
      (List.forall_mem_singleton.2 (by decide))

end EnvTemplates
