import EnvTemplates.Proofs.Project.Warnings
import EnvTemplates.Proofs.Substitution.Idle

/-!
# Deleting unused variables

A report calls a variable unused if it replaces nothing in any template. Such a variable may take
its turn anywhere among the others, and its own placeholder may even stand in a template; still
rendering does not change when its declaration is deleted. The argument goes template by template:
what each of them contributes to a run is the same without the variable.
-/

namespace EnvTemplates

open Source

/-- The definitions apart from those of the given keys. -/
def Definitions.removeAll (d : Definitions) (keys : List Text) : Definitions :=
  { d with vars := d.vars.removeAll keys }

variable {t : FileTree} {root : Path} {definitions : Definitions} {options : Options}
  {keys : List Text}

/-! ### One template -/

namespace Source

variable {s : Source}

theorem rendered_removeAll
    (h : ∀ key ∈ keys, (substitute s.text definitions.vars).countOf key = 0) :
    s.rendered (definitions.removeAll keys) options = s.rendered definitions options := by
  have htext := (Substitution.run_removeAll h).1
  have htotal := Substitution.total_removeAll h
  simp only [rendered, Definitions.removeAll, htext, htotal]

/-- A placeholder is as unresolved as before, also one of a variable that was deleted. -/
theorem unresolved_removeAll
    (h : ∀ key ∈ keys, (substitute s.text definitions.vars).countOf key = 0) :
    s.unresolved (definitions.removeAll keys).vars = s.unresolved definitions.vars := by
  apply List.filter_congr
  intro key _
  rw [Definitions.removeAll, Substitution.countOf_removeAll h]

theorem warnings_log_removeAll
    (h : ∀ key ∈ keys, (substitute s.text definitions.vars).countOf key = 0) :
    (s.log (definitions.removeAll keys) options).filter Event.isWarning =
      (s.log definitions options).filter Event.isWarning := by
  have hrun : (Substitution.run s.text (definitions.removeAll keys).vars).2.filter Event.isWarning =
      (Substitution.run s.text definitions.vars).2.filter Event.isWarning :=
    (Substitution.run_removeAll h).2.2
  -- The two events around those of the turns are no warnings.
  rw [log, log, List.filter_cons, List.filter_cons, List.filter_append, List.filter_append, hrun]
  rfl

end Source

/-! ### All templates -/

/-- None of the keys is replaced in any of the templates. -/
def IsIdle (vars : Variables) (sources : List Source) (keys : List Text) : Prop :=
  ∀ s ∈ sources, ∀ key ∈ keys, (substitute s.text vars).countOf key = 0

section Sources

variable {sources : List Source}

theorem mem_unusedVariables_iff {key : Text} :
    key ∈ (contextOf definitions options sources).finish.unusedVariables ↔
      key ∈ definitions.vars.keys ∧ countIn definitions.vars sources key = 0 := by
  rw [RunContext.unusedVariables_finish, contextOf, List.filter_map, List.map_map]
  simp

theorem isIdle_unusedVariables (definitions : Definitions) (options : Options)
    (sources : List Source) :
    IsIdle definitions.vars sources
      (contextOf definitions options sources).finish.unusedVariables := by
  intro s hs key hkey
  exact countIn_eq_zero_iff.1 (mem_unusedVariables_iff.1 hkey).2 s hs

theorem countIn_removeAll (h : IsIdle definitions.vars sources keys) (key : Text) :
    countIn (definitions.removeAll keys).vars sources key =
      countIn definitions.vars sources key := by
  rw [countIn, countIn]
  congr 1
  apply List.map_congr_left
  intro s hs
  exact Substitution.countOf_removeAll (h s hs) key

/-- The context without idle keys: only their counts are missing. -/
theorem contextOf_removeAll (options : Options) (h : IsIdle definitions.vars sources keys) :
    contextOf (definitions.removeAll keys) options sources =
      { contextOf definitions options sources with
        counts := (contextOf definitions options sources).counts.filter
          fun t => t.key ∉ keys } := by
  have hcounts : (contextOf (definitions.removeAll keys) options sources).counts =
      (contextOf definitions options sources).counts.filter fun t => t.key ∉ keys := by
    show (definitions.vars.removeAll keys).keys.map (fun key =>
        (⟨key, countIn (definitions.removeAll keys).vars sources key⟩ : Tally)) =
      (definitions.vars.keys.map fun key => ⟨key, countIn definitions.vars sources key⟩).filter _
    rw [Variables.keys_removeAll, List.filter_map]
    apply List.map_congr_left
    intro key _
    rw [countIn_removeAll h]
  have hunresolved : (contextOf (definitions.removeAll keys) options sources).unresolved =
      (contextOf definitions options sources).unresolved := by
    apply List.flatMap_congr
    intro s hs
    rw [unresolved_removeAll (h s hs)]
  have hrendered : (contextOf (definitions.removeAll keys) options sources).rendered =
      (contextOf definitions options sources).rendered :=
    List.map_congr_left fun s hs => rendered_removeAll (h s hs)
  show _ = RunContext.mk _ _ _
  rw [← hcounts, ← hunresolved, ← hrendered]

/-- The keys that a report does not call unused are those with a count. -/
theorem filter_notMem_unusedVariables (sources : List Source) :
    (contextOf definitions options sources).counts.filter (fun t =>
        t.key ∉ (contextOf definitions options sources).finish.unusedVariables) =
      (contextOf definitions options sources).counts.filter fun t => t.count ≠ 0 := by
  apply List.filter_congr
  intro t ht
  obtain ⟨key, hkey, rfl⟩ := List.mem_map.1 ht
  rw [decide_eq_decide, mem_unusedVariables_iff, and_iff_right hkey]

theorem warnings_flatMap_log_removeAll (h : IsIdle definitions.vars sources keys) :
    (sources.flatMap (log (definitions.removeAll keys) options)).filter Event.isWarning =
      (sources.flatMap (log definitions options)).filter Event.isWarning := by
  rw [List.filter_flatMap, List.filter_flatMap]
  apply List.flatMap_congr
  intro s hs
  exact warnings_log_removeAll (h s hs)

end Sources

/-! ### Whole runs -/

/-- **Unused variables can be deleted.** Without them the project renders to the same outputs, with
the same warnings about placeholders and the same warnings in the log. The counts that are left are
those of the variables that were used, so that no variable is called unused any more. -/
theorem render_removeAll_unused {report : Report}
    (h : (render t root definitions options).result = .ok report) :
    ∃ pruned : Report,
      (render t root (definitions.removeAll report.unusedVariables) options).result = .ok pruned ∧
      pruned.rendered = report.rendered ∧
      pruned.counts = report.counts.filter (fun t => t.count ≠ 0) ∧
      pruned.warnings = report.unresolvedKeys.map .unresolved ∧
      pruned.unusedVariables = [] ∧ pruned.unresolvedKeys = report.unresolvedKeys ∧
      (render t root (definitions.removeAll report.unusedVariables) options).events.filter
          Event.isWarning =
        (render t root definitions options).events.filter Event.isWarning := by
  obtain ⟨sources, hfound, hreads, rfl⟩ := render_eq_ok_iff.1 h
  have hidle := isIdle_unusedVariables definitions options sources
  have hcontext := contextOf_removeAll options hidle
  rw [filter_notMem_unusedVariables] at hcontext
  have hnone : ((contextOf definitions options sources).counts.filter fun t => t.count ≠ 0).filter
      (fun t => t.count = 0) = [] := by
    rw [List.filter_filter, List.filter_eq_nil_iff]
    simp
  refine ⟨_, render_eq_ok_iff.2 ⟨sources, hfound, hreads, rfl⟩, ?_⟩
  rw [hcontext, RunContext.unusedVariables_finish, RunContext.unresolvedKeys_finish,
    RunContext.unresolvedKeys_finish]
  refine ⟨rfl, rfl, ?_, ?_, rfl, ?_⟩
  · rw [RunContext.finish, hnone]
    rfl
  · rw [hnone]
    rfl
  · -- The templates are found before any variable is looked at.
    rw [events_render hfound hreads, events_render hfound hreads, List.filter_append,
      List.filter_append, warnings_flatMap_log_removeAll hidle]

/-- A project with one template. Its first placeholder holds that of `A` inside of its key. -/
def coveringProject : FileTree where
  entries := [([Utf8.encode "a.envt".toList],
    .file (Utf8.encode "$\x7bX $\x7bA\x7d$\x7bB\x7d$\x7bC\x7d".toList))]
  named := by decide

/-- The covering placeholder leaves nothing of `A`, `B` has a value with its own placeholder, and
`C` is not declared. -/
def coveringDefinitions : Definitions where
  environment := "dev".toList
  path := .ofText "dev.envs".toList
  vars := .ofList [⟨"X $\x7bA".toList, "x".toList⟩, ⟨"A".toList, "a".toList⟩,
    ⟨"B".toList, "<$\x7bB\x7d>".toList⟩]

def coveringReport : Report where
  rendered := [⟨.ofText "./a.envt".toList, .ofText "./a".toList,
    "x<$\x7bB\x7d>$\x7bC\x7d".toList, 2⟩]
  counts := [⟨"X $\x7bA".toList, 1⟩, ⟨"A".toList, 0⟩, ⟨"B".toList, 1⟩]
  warnings := [.unusedVariable "A".toList,
    .unresolved ⟨"A".toList, .ofText "./a.envt".toList⟩,
    .unresolved ⟨"C".toList, .ofText "./a.envt".toList⟩]

/-- What is left without the declaration that the report calls unused. -/
def coveringPruned : Definitions := coveringDefinitions.removeAll ["A".toList]

/-- The declaration of `A` stands between two others and its placeholder stands in the template.
Without it the placeholder is warned about as before, and so is the value of `B`. -/
theorem render_removeAll_covered :
    ∃ pruned : Report,
      (render coveringProject ⟨Path.dot⟩ coveringPruned {}).result = .ok pruned ∧
      pruned.rendered = coveringReport.rendered ∧
      pruned.counts = [⟨"X $\x7bA".toList, 1⟩, ⟨"B".toList, 1⟩] ∧
      pruned.warnings = [.unresolved ⟨"A".toList, .ofText "./a.envt".toList⟩,
        .unresolved ⟨"C".toList, .ofText "./a.envt".toList⟩] ∧
      (render coveringProject ⟨Path.dot⟩ coveringPruned {}).events.filter Event.isWarning =
        [.selfReference "B".toList] := by
  have hreport : (render coveringProject ⟨Path.dot⟩ coveringDefinitions {}).result =
      .ok coveringReport := by
    cbv
  have hevents : (render coveringProject ⟨Path.dot⟩ coveringDefinitions {}).events.filter
      Event.isWarning = [.selfReference "B".toList] := by
    cbv
  obtain ⟨pruned, hpruned, hrendered, hcounts, hwarnings, -, -, hlog⟩ :=
    render_removeAll_unused hreport
  exact ⟨pruned, hpruned, hrendered, hcounts, hwarnings, hlog.trans hevents⟩

end EnvTemplates
