import EnvTemplates.Proofs.Placeholder.Scanning
import EnvTemplates.Proofs.Project.Rendering
import EnvTemplates.Proofs.Variables

/-!
# What a run warns about

The warnings of a run are told by the texts of its templates: which keys stand in them, in which
order, and how often each of them is replaced. A placeholder that stands in a template can only go
uncounted if an earlier variable has a token around it, since nothing else that is replaced before
its turn can touch it.
-/

namespace EnvTemplates

open Placeholder Source

/-- A text has another one inside of it, and more. -/
def ProperlyContains (outer inner : Text) : Prop := inner <:+: outer ∧ inner ≠ outer

/-- **No placeholder is lost** on the way to its variable's turn, unless an earlier token contains
it. -/
theorem occurrences_written_le_countOf {vars : Variables} {key : Text} (hdeclared : key ∈ vars.keys)
    (hdollar : '$' ∉ key) (hbrace : '}' ∉ key)
    (hnot : ∀ u ∈ vars.before key, ¬ ProperlyContains u.token (written key)) (template : Text) :
    Text.occurrences (written key) template ≤ (substitute template vars).countOf key := by
  obtain ⟨v, after, rfl, hvars⟩ := Variables.toList_eq_of_mem_keys hdeclared
  refine Substitution.occurrences_le_countOf hvars hdollar hbrace ?_ template
  intro u hu hinside
  -- Distinct keys have distinct tokens, so whatever contains a token contains it properly.
  have hne : v.token ≠ u.token := by
    intro heq
    have hkeys : u.key = v.key := by simpa [Variable.token, eq_comm] using heq
    exact Variables.key_ne_of_mem_before hu hkeys
  exact hnot u hu ⟨hinside, hne⟩

namespace Source

variable {vars : Variables} {s : Source}

theorem mem_unresolved_iff {key : Text} :
    key ∈ s.unresolved vars ↔
      key ∈ scanKeys s.text ∧ (substitute s.text vars).countOf key = 0 := by
  rw [unresolved, List.mem_filter, decide_eq_true_eq]

theorem mem_unresolved_of_undeclared {key : Text} (hscan : key ∈ scanKeys s.text)
    (hnew : key ∉ vars.keys) : key ∈ s.unresolved vars :=
  mem_unresolved_iff.2 ⟨hscan, Substitution.countOf_eq_zero hnew⟩

theorem exists_token_of_mem_unresolved {key : Text} (h : key ∈ s.unresolved vars)
    (hdeclared : key ∈ vars.keys) :
    ∃ u ∈ vars.before key, ProperlyContains u.token (written key) := by
  obtain ⟨hscan, hzero⟩ := mem_unresolved_iff.1 h
  obtain ⟨hkey, hinside⟩ := mem_scanKeys_iff.1 hscan
  by_contra hnone
  push Not at hnone
  -- The placeholder stands in the text at least once, and would have been counted.
  have hle := occurrences_written_le_countOf hdeclared (isKey_dollar_notMem hkey)
    (isKey_brace_notMem hkey) hnone s.text
  have hpos := Text.occurrences_pos_iff.2 hinside
  omega

theorem countIn_eq_zero_iff {sources : List Source} {key : Text} :
    countIn vars sources key = 0 ↔ ∀ s ∈ sources, (substitute s.text vars).countOf key = 0 := by
  rw [countIn, List.sum_eq_zero_iff_forall_eq_nat, List.forall_mem_map]

end Source

namespace RunContext

/-- A report calls the keys unused that have a count of zero. -/
theorem unusedVariables_finish (context : RunContext) :
    context.finish.unusedVariables =
      (context.counts.filter fun t => t.count = 0).map (·.key) := by
  rw [Report.unusedVariables, finish]
  simp [List.filterMap_append, List.filterMap_map]

theorem unresolvedKeys_finish (context : RunContext) :
    context.finish.unresolvedKeys = context.unresolved := by
  rw [Report.unresolvedKeys, finish]
  simp [List.filterMap_append, List.filterMap_map]

end RunContext

section Report

variable {t : FileTree} {root : Path} {definitions : Definitions} {options : Options}

theorem warnings_finish_contextOf (sources : List Source) :
    (contextOf definitions options sources).finish.warnings =
      (definitions.vars.keys.filter fun key => countIn definitions.vars sources key = 0).map
          .unusedVariable ++
        sources.flatMap fun s =>
          (s.unresolved definitions.vars).map fun key => .unresolved ⟨key, s.path⟩ := by
  have hunused : ((definitions.vars.keys.map fun key =>
        (⟨key, countIn definitions.vars sources key⟩ : Tally)).filter fun tally =>
          tally.count = 0).map (fun tally => Warning.unusedVariable tally.key) =
      (definitions.vars.keys.filter fun key => countIn definitions.vars sources key = 0).map
        .unusedVariable := by
    rw [List.filter_map, List.map_map]
    rfl
  simp only [RunContext.finish, contextOf, hunused, List.map_flatMap, List.map_map]
  rfl

theorem unusedVariable_mem_warnings_iff {sources : List Source} {key : Text} :
    .unusedVariable key ∈ (contextOf definitions options sources).finish.warnings ↔
      key ∈ definitions.vars.keys ∧
        ∀ s ∈ sources, (substitute s.text definitions.vars).countOf key = 0 := by
  rw [warnings_finish_contextOf, ← countIn_eq_zero_iff]
  simp

/-- **The warnings of a run are sound and complete.** Those about variables come first: they name,
in declaration order, the keys that are replaced nowhere. Those about placeholders follow, template
by template in the order of discovery: they name, in the order first seen, the keys that stand in
the template and that nothing is replaced for in it. An undeclared key that stands in a template is
always among them, a declared one only if an earlier token contains its placeholder. And unless that
is so, a variable that is called unused has its placeholder in no template. -/
theorem warnings_of_render {report : Report}
    (h : (render t root definitions options).result = .ok report) :
    ∃ sources : List Source,
      (collect t root options).result = .ok (sources.map (·.path)) ∧
      (∀ s ∈ sources, t.readText s.path = .ok s.text) ∧
      report.warnings =
        (definitions.vars.keys.filter fun key => countIn definitions.vars sources key = 0).map
            .unusedVariable ++
          (sources.flatMap fun s =>
            (s.unresolved definitions.vars).map fun key => .unresolved ⟨key, s.path⟩) ∧
      (∀ s ∈ sources,
        (s.unresolved definitions.vars).Pairwise (SeenBefore s.text) ∧
        (s.unresolved definitions.vars).Nodup ∧
        (∀ key, key ∈ s.unresolved definitions.vars ↔ (IsKey key ∧ written key <:+: s.text) ∧
          (substitute s.text definitions.vars).countOf key = 0) ∧
        (∀ key ∈ scanKeys s.text, key ∉ definitions.vars.keys →
          key ∈ s.unresolved definitions.vars) ∧
        ∀ key ∈ s.unresolved definitions.vars, key ∈ definitions.vars.keys →
          ∃ u ∈ definitions.vars.before key, ProperlyContains u.token (written key)) ∧
      ∀ key ∈ definitions.vars.keys, '$' ∉ key → '}' ∉ key →
        (∀ u ∈ definitions.vars.before key, ¬ ProperlyContains u.token (written key)) →
        (∀ s ∈ sources, Text.occurrences (written key) s.text ≤
          (substitute s.text definitions.vars).countOf key) ∧
        (.unusedVariable key ∈ report.warnings → ∀ s ∈ sources, ¬ written key <:+: s.text) := by
  obtain ⟨sources, hfound, hreads, rfl⟩ := render_eq_ok_iff.1 h
  refine ⟨sources, hfound, hreads, warnings_finish_contextOf sources, ?_, ?_⟩
  · intro s _
    have horder : (s.unresolved definitions.vars).Pairwise (SeenBefore s.text) :=
      (pairwise_scanKeys s.text).sublist List.filter_sublist
    refine ⟨horder, horder.imp fun h => h.ne, fun key => ?_, ?_, ?_⟩
    · rw [mem_unresolved_iff, mem_scanKeys_iff]
    · exact fun key => mem_unresolved_of_undeclared
    · exact fun key => exists_token_of_mem_unresolved
  · intro key hdeclared hdollar hbrace hnot
    have hcount := occurrences_written_le_countOf hdeclared hdollar hbrace hnot
    refine ⟨fun s _ => hcount s.text, ?_⟩
    intro hunused s hs hinside
    have hzero := (unusedVariable_mem_warnings_iff.1 hunused).2 s hs
    have hpos : 0 < Text.occurrences (written key) s.text := Text.occurrences_pos_iff.2 hinside
    have hle := hcount s.text
    omega

/-- A project with one template, whose first placeholder holds the second one inside of its key. -/
def nestedProject : FileTree where
  entries := [([Utf8.encode "a.envt".toList],
    .file (Utf8.encode "$\x7bX $\x7bA\x7d$\x7bB\x7d".toList))]
  named := by decide

/-- The outer placeholder takes its turn first and leaves nothing of the inner one. -/
def nestedDefinitions : Definitions where
  environment := "dev".toList
  path := .ofText "dev.envs".toList
  vars := .ofList [⟨"X $\x7bA".toList, []⟩, ⟨"A".toList, []⟩]

/-- What is warned about: nothing is left of the inner placeholder and what stands behind it. -/
def nestedWarnings : List Warning := [.unusedVariable "A".toList,
  .unresolved ⟨"A".toList, .ofText "./a.envt".toList⟩,
  .unresolved ⟨"B".toList, .ofText "./a.envt".toList⟩]

/-- The inner placeholder is declared and stands in the template, yet it is warned about. -/
theorem warnings_of_render_nested :
    ∃ report, (render nestedProject ⟨Path.dot⟩ nestedDefinitions {}).result = .ok report ∧
      report.warnings = nestedWarnings ∧
      ∃ u ∈ nestedDefinitions.vars.before "A".toList,
        ProperlyContains u.token (written "A".toList) := by
  have heval : (render nestedProject ⟨Path.dot⟩ nestedDefinitions {}).result.map (·.warnings) =
      .ok nestedWarnings := by
    cbv
  cases hresult : (render nestedProject ⟨Path.dot⟩ nestedDefinitions {}).result with
  | error e =>
    rw [hresult] at heval
    cases heval
  | ok report =>
    have hwarnings : report.warnings = nestedWarnings := by
      rw [hresult] at heval
      exact Except.ok.inj heval
    refine ⟨report, rfl, hwarnings, ?_⟩
    obtain ⟨sources, -, -, hall, hlocal, -⟩ := warnings_of_render hresult
    have hmem : Warning.unresolved ⟨"A".toList, .ofText "./a.envt".toList⟩ ∈ report.warnings := by
      rw [hwarnings]
      exact List.mem_cons_of_mem _ List.mem_cons_self
    rw [hall, List.mem_append, List.mem_flatMap] at hmem
    rcases hmem with hunused | ⟨s, hs, hmem⟩
    · exact absurd hunused (by simp)
    · obtain ⟨key, hkey, heq⟩ := List.mem_map.1 hmem
      simp only [Warning.unresolved.injEq, UnresolvedKey.mk.injEq] at heq
      obtain ⟨rfl, -⟩ := heq
      obtain ⟨-, -, -, -, hdeclared⟩ := hlocal s hs
      exact hdeclared _ hkey (by decide)

end Report

end EnvTemplates
