import EnvTemplates.Proofs.Naming.Remainder
import EnvTemplates.Proofs.Project.Rendering

/-!
# Where an output goes

A template is rendered to a path in its own directory. The path is that of a sibling, with the
derived name as its last component, if the derived name is one that an entry can have
(`standsIn_join_iff`). When nothing but dots is left of the template's name, the path stands for the
directory itself or for the one above it, where no file can be written (`process_places`). Nothing
in the search for templates keeps such names out (`process_misplaces`).
-/

namespace EnvTemplates

variable {t : FileTree} {definitions : Definitions} {options : Options}
  {context after : RunContext} {template directory : Path} {name : Text}

/-! ### Siblings -/

/-- An output stands in a directory under a name. -/
structure StandsIn (directory output : Path) (name : Text) : Prop where
  fileName : output.fileName? = some (Utf8.encode name)
  parent : ∃ parent, output.parent? = some parent ∧ parent.components = directory.components

/-- An output is the directory itself, under another spelling, or the one above it. -/
structure FallsBack (directory output : Path) : Prop where
  isAbsolute : output.isAbsolute = directory.isAbsolute
  steps : output.steps = directory.steps ∨ output.steps = directory.steps ++ [.up]

/-- A joined name stands in the directory, if an entry can have it. -/
theorem standsIn_join_iff :
    StandsIn directory (directory.join (.ofText name)) name ↔ Path.IsName (Utf8.encode name) := by
  constructor
  · intro h
    exact Path.isName_of_fileName? h.fileName
  · intro h
    exact ⟨Path.fileName?_join_name h, Path.components_parent?_join_name h⟩

/-- Dots do not lead to an entry. -/
theorem fallsBack_join (h : name ∈ dotNames) :
    FallsBack directory (directory.join (.ofText name)) := by
  have hslash : Path.slash ∉ Utf8.encode name := by
    revert name
    decide
  refine ⟨Path.isAbsolute_join hslash, ?_⟩
  rw [Path.ofText, Path.steps_join hslash]
  rcases List.mem_cons.1 h with rfl | h
  · exact Or.inl (List.append_nil _)
  · rcases List.mem_cons.1 h with rfl | h
    · exact Or.inl (List.append_nil _)
    · obtain rfl := List.mem_singleton.1 h
      exact Or.inr rfl

/-! ### Templates -/

/-- What is recorded for a template with a name in a directory. -/
theorem process_records (hname : template.fileNameText? = some name)
    (hparent : template.parent? = some directory)
    (h : (process t definitions options context template).result = .ok after) :
    ∃ r : Rendered, after.rendered = context.rendered ++ [r] ∧ r.template = template ∧
      r.output = directory.join
        (.ofText (outputName name definitions.environment options.templateSuffix)) := by
  obtain ⟨text, -, rfl⟩ := process_eq_ok_iff.1 h
  refine ⟨_, rfl, rfl, ?_⟩
  simp only [Source.rendered, outputPath, hname, hparent, Option.getD_some]

/-- **An output stands next to its template, unless nothing but dots is left of the template's
name.** In that case it is the directory of the template, or the one above. -/
theorem process_places {path : Path} {suffix : Text}
    (htemplate : isTemplate template options.templateSuffix = true)
    (henvironment : Definitions.environmentName path suffix = .ok definitions.environment)
    (h : (process t definitions options context template).result = .ok after) :
    ∃ (name : Text) (directory : Path) (r : Rendered),
      template.fileNameText? = some name ∧ template.parent? = some directory ∧
      after.rendered = context.rendered ++ [r] ∧ r.template = template ∧
      (StandsIn directory r.output
          (outputName name definitions.environment options.templateSuffix) ↔
        ¬ LeavesDots name definitions.environment options.templateSuffix) ∧
      (LeavesDots name definitions.environment options.templateSuffix →
        FallsBack directory r.output) := by
  obtain ⟨name, hname⟩ : ∃ name, template.fileNameText? = some name := by
    cases hname : template.fileNameText? with
    | some name => exact ⟨name, rfl⟩
    | none =>
      rw [isTemplate, hname] at htemplate
      cases htemplate
  obtain ⟨bytes, hbytes, -⟩ := Option.bind_eq_some_iff.1 hname
  obtain ⟨directory, hparent⟩ := Path.exists_parent?_of_fileName? hbytes
  obtain ⟨r, hrendered, htemplate, houtput⟩ := process_records hname hparent h
  obtain ⟨hne, -⟩ := Definitions.environmentName_eq_ok_iff.1 henvironment
  refine ⟨name, directory, r, hname, hparent, hrendered, htemplate, ?_, fun hdots => ?_⟩
  · rw [houtput, standsIn_join_iff, isName_outputName_iff (Path.slash_notMem_fileNameText? hname)
      (Definitions.slash_notMem_environmentName henvironment) hne]
  · rw [houtput]
    exact fallsBack_join ((outputName_mem_dotNames_iff hne).2 hdots)

/-- Two templates with a marker. Of the name of one of them, nothing else is left. -/
def marked : FileTree where
  entries := [([Utf8.encode ".Env..envt".toList], .file []),
    ([Utf8.encode "a.Env.txt.envt".toList], .file [])]
  distinct := by decide
  named := by decide

/-- An environment whose name vanishes in Pascal case. -/
def dashDefinitions : Definitions where
  environment := "-".toList
  path := .ofText "-.env".toList
  vars := .ofList []

theorem environmentName_dash : Definitions.environmentName dashDefinitions.path ".env".toList =
    .ok dashDefinitions.environment := by
  cbv

/-- What has the marker alone for its name is rendered to the directory above. -/
theorem process_places_marked :
    (∃ after r, (process marked dashDefinitions {} (.start dashDefinitions.vars)
          (.ofText "./a.Env.txt.envt".toList)).result = .ok after ∧
        after.rendered = [r] ∧ StandsIn ⟨Path.dot⟩ r.output "a..txt".toList) ∧
    ∃ after r, (process marked dashDefinitions {} (.start dashDefinitions.vars)
          (.ofText "./.Env..envt".toList)).result = .ok after ∧
        after.rendered = [r] ∧ ¬ StandsIn ⟨Path.dot⟩ r.output "..".toList ∧
        FallsBack ⟨Path.dot⟩ r.output := by
  have hplaces : ∀ template name, template.fileNameText? = some name →
      template.parent? = some ⟨Path.dot⟩ → isTemplate template defaultTemplateSuffix = true →
      marked.readText template = .ok [] →
      ∃ after r, (process marked dashDefinitions {} (.start dashDefinitions.vars) template).result =
          .ok after ∧ after.rendered = [r] ∧
        (StandsIn ⟨Path.dot⟩ r.output (outputName name "-".toList defaultTemplateSuffix) ↔
          ¬ LeavesDots name "-".toList defaultTemplateSuffix) ∧
        (LeavesDots name "-".toList defaultTemplateSuffix → FallsBack ⟨Path.dot⟩ r.output) := by
    intro template name hname hparent htemplate hread
    have hok : ∃ after, (process marked dashDefinitions {} (.start dashDefinitions.vars)
        template).result = .ok after := ⟨_, process_eq_ok_iff.2 ⟨[], hread, rfl⟩⟩
    obtain ⟨after, hafter⟩ := hok
    obtain ⟨name', directory, r, hname', hparent', hrendered, -, hstands, hback⟩ :=
      process_places htemplate environmentName_dash hafter
    cases hname.symm.trans hname'
    cases hparent.symm.trans hparent'
    exact ⟨after, r, hafter, hrendered, hstands, hback⟩
  constructor
  · obtain ⟨after, r, hafter, hrendered, hstands, -⟩ := hplaces (.ofText "./a.Env.txt.envt".toList)
      "a.Env.txt.envt".toList (by cbv) (by cbv) (by cbv) (by cbv)
    have hderived : outputName "a.Env.txt.envt".toList "-".toList defaultTemplateSuffix =
        "a..txt".toList := by
      cbv
    rw [hderived] at hstands
    exact ⟨after, r, hafter, hrendered, hstands.2 (by decide)⟩
  · obtain ⟨after, r, hafter, hrendered, hstands, hback⟩ := hplaces (.ofText "./.Env..envt".toList)
      ".Env..envt".toList (by cbv) (by cbv) (by cbv) (by cbv)
    have hderived : outputName ".Env..envt".toList "-".toList defaultTemplateSuffix =
        "..".toList := by
      cbv
    have hdots : LeavesDots ".Env..envt".toList "-".toList defaultTemplateSuffix :=
      Or.inr ⟨by cbv, by decide, List.forall_mem_singleton.2 rfl⟩
    rw [hderived] at hstands
    exact ⟨after, r, hafter, hrendered, fun h => hstands.1 h hdots, hback hdots⟩

/-- A template that is called by the suffix alone. -/
def nameless : FileTree where
  entries := [([Utf8.encode ".envt".toList], .file [])]
  distinct := by decide
  named := by decide

/-- Not every output stands next to its template under a name. -/
theorem process_misplaces :
    ¬ ∀ (t : FileTree) (definitions : Definitions) (options : Options) (context after : RunContext)
        (template path : Path) (suffix : Text),
      isTemplate template options.templateSuffix = true → options.templateSuffix ≠ [] →
      Definitions.environmentName path suffix = .ok definitions.environment →
      (process t definitions options context template).result = .ok after →
      ∃ (name : Text) (directory : Path) (r : Rendered),
        template.fileNameText? = some name ∧ template.parent? = some directory ∧
        after.rendered = context.rendered ++ [r] ∧ r.template = template ∧
        outputName name definitions.environment options.templateSuffix ≠ [] ∧
        StandsIn directory r.output
          (outputName name definitions.environment options.templateSuffix) := by
  intro h
  have hread : nameless.readText (.ofText "./.envt".toList) = .ok [] := by cbv
  obtain ⟨name, -, -, hname, -, -, -, hne, -⟩ := h nameless dashDefinitions {}
    (.start dashDefinitions.vars) _ (.ofText "./.envt".toList) dashDefinitions.path ".env".toList
    (by cbv) (by decide) environmentName_dash (process_eq_ok_iff.2 ⟨[], hread, rfl⟩)
  have hname' : (Path.ofText "./.envt".toList).fileNameText? = some ".envt".toList := by cbv
  cases hname'.symm.trans hname
  exact hne (by cbv)

end EnvTemplates
