import EnvTemplates.Proofs.Substitution.Turns
import EnvTemplates.Project

/-!
# What rendering accumulates

Rendering goes through the templates one after the other and keeps adding to a context. Since every
template contributes what its own text gives, whatever came before it, the context after some
templates is told by the list of their texts alone (`contextOf`), and a run that succeeds has read
every template that it found (`render_eq_ok_iff`).
-/

namespace EnvTemplates

/-- A template with the text that was read from it. -/
structure Source where
  path : Path
  text : Text

namespace Source

/-- What a template is rendered to. -/
def rendered (definitions : Definitions) (options : Options) (s : Source) : Rendered where
  template := s.path
  output := outputPath s.path (outputName (s.path.fileNameText?.getD []) definitions.environment
    options.templateSuffix)
  content := (substitute s.text definitions.vars).text
  replacements := (substitute s.text definitions.vars).total

/-- The replacements of a key in all of the given templates. -/
def countIn (vars : Variables) (sources : List Source) (key : Text) : Nat :=
  (sources.map fun s => (substitute s.text vars).countOf key).sum

/-- The keys that a template refers to and that nothing is replaced for. -/
def unresolved (vars : Variables) (s : Source) : List Text :=
  (Placeholder.scanKeys s.text).filter fun key => (substitute s.text vars).countOf key = 0

/-- What the given templates contribute to a run. -/
def contextOf (definitions : Definitions) (options : Options) (sources : List Source) :
    RunContext where
  counts := definitions.vars.keys.map fun key => ⟨key, countIn definitions.vars sources key⟩
  unresolved := sources.flatMap fun s =>
    (s.unresolved definitions.vars).map fun key => ⟨key, s.path⟩
  rendered := sources.map (rendered definitions options)

end Source

open Source

variable {t : FileTree} {root : Path} {definitions : Definitions} {options : Options}

theorem contextOf_nil (definitions : Definitions) (options : Options) :
    contextOf definitions options [] = RunContext.start definitions.vars := rfl

theorem unresolved_substitute (template : Text) (vars : Variables) :
    (substitute template vars).unresolved =
      (Placeholder.scanKeys template).filter fun key =>
        (substitute template vars).countOf key = 0 := by
  have hreferenced : (substitute template vars).referenced =
      (Placeholder.scanKeys template).map fun key =>
        ⟨key, (substitute template vars).countOf key⟩ := rfl
  rw [Substitution.unresolved, hreferenced, List.filter_map, List.map_map]
  exact List.map_id _

/-- One more template adds its own contribution. -/
theorem contextOf_concat (sources : List Source) (s : Source) :
    ((contextOf definitions options sources).record s.path
        (substitute s.text definitions.vars)).pushRendered (s.rendered definitions options) =
      contextOf definitions options (sources ++ [s]) := by
  -- The three fields one by one: counts are added key by key, the lists grow at their ends.
  have hcounts : (substitute s.text definitions.vars).replacements.foldl RunContext.addTally
        (contextOf definitions options sources).counts =
      (contextOf definitions options (sources ++ [s])).counts := by
    have hfold := RunContext.foldl_addTally_map (countIn definitions.vars sources)
      definitions.vars.distinct (Substitution.keys_replacements s.text definitions.vars)
    apply hfold.trans
    apply List.map_congr_left
    intro key _
    rw [countIn, countIn, List.map_append, List.sum_append]
    simp [Substitution.countOf]
  have hunresolved : (contextOf definitions options sources).unresolved ++
        (substitute s.text definitions.vars).unresolved.map (fun key => ⟨key, s.path⟩) =
      (contextOf definitions options (sources ++ [s])).unresolved := by
    rw [unresolved_substitute]
    simp [contextOf, Source.unresolved]
  have hrendered : (contextOf definitions options sources).rendered ++
        [s.rendered definitions options] =
      (contextOf definitions options (sources ++ [s])).rendered := by
    simp [contextOf]
  rw [RunContext.record, RunContext.pushRendered]
  simp only [hcounts, hunresolved, hrendered]

/-! ### One template -/

theorem process_eq_ok_iff {context after : RunContext} {template : Path} :
    (process t definitions options context template).result = .ok after ↔
      ∃ text, t.readText template = .ok text ∧
        after = (context.record template (substitute text definitions.vars)).pushRendered
          (rendered definitions options ⟨template, text⟩) := by
  unfold process
  simp only [Run.result_bind_eq_ok, Run.result_log, Run.result_logAll, Run.result_ofExcept,
    Run.result_pure]
  cases t.readText template with
  | error cause => simp [Except.mapError]
  | ok text => simp [Except.mapError, substitute, rendered, eq_comm]

theorem process_eq_error_iff {context : RunContext} {template : Path} {e : Error} :
    (process t definitions options context template).result = .error e ↔
      ∃ cause, t.readText template = .error cause ∧ e = .templateRead template cause := by
  unfold process
  simp only [Run.result_bind_eq_error, Run.result_log, Run.result_logAll, Run.result_ofExcept,
    Run.result_pure]
  cases t.readText template with
  | error cause => simp [Except.mapError, eq_comm]
  | ok text => simp [Except.mapError]

/-! ### All templates -/

/-- The run lemma: the induction is on the templates that are left, and `done` are those that the
context already tells about. -/
theorem foldlM_process_eq_ok_iff {templates : List Path} {after : RunContext} :
    ∀ done, (templates.foldlM (process t definitions options)
        (contextOf definitions options done)).result = .ok after ↔
      ∃ sources : List Source, sources.map (·.path) = templates ∧
        (∀ s ∈ sources, t.readText s.path = .ok s.text) ∧
        after = contextOf definitions options (done ++ sources) := by
  induction templates with
  | nil =>
    intro done
    simp only [List.foldlM_nil, Run.result_pure, Except.ok.injEq, List.map_eq_nil_iff]
    constructor
    · rintro rfl
      exact ⟨[], rfl, by simp, by rw [List.append_nil]⟩
    · rintro ⟨_, rfl, -, rfl⟩
      rw [List.append_nil]
  | cons template templates ih =>
    intro done
    rw [List.foldlM_cons, Run.result_bind_eq_ok]
    constructor
    · rintro ⟨next, hnext, hrest⟩
      obtain ⟨text, hread, rfl⟩ := process_eq_ok_iff.1 hnext
      -- The template just read joins those done, and the context is still told by them.
      rw [contextOf_concat done ⟨template, text⟩] at hrest
      obtain ⟨sources, hpaths, hreads, rfl⟩ := (ih _).1 hrest
      refine ⟨⟨template, text⟩ :: sources, by rw [List.map_cons, hpaths], ?_, ?_⟩
      · exact List.forall_mem_cons.2 ⟨hread, hreads⟩
      · rw [List.append_assoc, List.singleton_append]
    · rintro ⟨sources, hpaths, hreads, rfl⟩
      obtain ⟨s, rest, rfl, rfl, hrest⟩ := List.map_eq_cons_iff.1 hpaths
      obtain ⟨hread, hreads⟩ := List.forall_mem_cons.1 hreads
      refine ⟨_, process_eq_ok_iff.2 ⟨s.text, hread, rfl⟩, ?_⟩
      rw [contextOf_concat done s, ih]
      exact ⟨rest, hrest, hreads, by rw [List.append_assoc, List.singleton_append]⟩

/-- **What a successful rendering gives.** It has found and read every template, and its report is
told by their texts. -/
theorem render_eq_ok_iff {report : Report} :
    (render t root definitions options).result = .ok report ↔
      ∃ sources : List Source, (collect t root options).result = .ok (sources.map (·.path)) ∧
        (∀ s ∈ sources, t.readText s.path = .ok s.text) ∧
        report = (contextOf definitions options sources).finish := by
  unfold render
  simp only [Run.result_bind_eq_ok, Run.result_pure, Except.ok.injEq,
    ← contextOf_nil definitions options]
  constructor
  · rintro ⟨templates, hfound, context, hcontext, rfl⟩
    obtain ⟨sources, rfl, hreads, rfl⟩ := (foldlM_process_eq_ok_iff _).1 hcontext
    exact ⟨sources, hfound, hreads, rfl⟩
  · rintro ⟨sources, hfound, hreads, rfl⟩
    refine ⟨_, hfound, contextOf definitions options sources, ?_, rfl⟩
    exact (foldlM_process_eq_ok_iff _).2 ⟨sources, rfl, hreads, rfl⟩

/-! ### What is logged -/

/-- What rendering a template logs. -/
def Source.log (definitions : Definitions) (options : Options) (s : Source) : List Event :=
  .outputNamed s.path (outputName (s.path.fileNameText?.getD []) definitions.environment
      options.templateSuffix) ::
    ((Substitution.run s.text definitions.vars).2 ++
      [.templateSubstituted s.path (substitute s.text definitions.vars).total])

theorem events_process {context : RunContext} {s : Source} (h : t.readText s.path = .ok s.text) :
    (process t definitions options context s.path).events = s.log definitions options := by
  rw [process, h]
  rfl

/-- What was logged before does not matter to what a template logs. -/
theorem events_foldlM_process {sources : List Source}
    (h : ∀ s ∈ sources, t.readText s.path = .ok s.text) :
    ∀ context, ((sources.map (·.path)).foldlM (process t definitions options) context).events =
      sources.flatMap (log definitions options) := by
  induction sources with
  | nil => exact fun _ => rfl
  | cons s sources ih =>
    intro context
    obtain ⟨hs, hsources⟩ := List.forall_mem_cons.1 h
    obtain ⟨next, hnext⟩ : ∃ next,
        (process t definitions options context s.path).result = .ok next :=
      ⟨_, process_eq_ok_iff.2 ⟨s.text, hs, rfl⟩⟩
    rw [List.map_cons, List.foldlM_cons, Run.events_bind_of_ok hnext, events_process hs,
      ih hsources, List.flatMap_cons]

theorem events_render {sources : List Source}
    (hfound : (collect t root options).result = .ok (sources.map (·.path)))
    (hreads : ∀ s ∈ sources, t.readText s.path = .ok s.text) :
    (render t root definitions options).events =
      (collect t root options).events ++ sources.flatMap (log definitions options) := by
  obtain ⟨context, hcontext⟩ : ∃ context, ((sources.map (·.path)).foldlM
      (process t definitions options) (.start definitions.vars)).result = .ok context :=
    ⟨_, (foldlM_process_eq_ok_iff []).2 ⟨sources, rfl, hreads, rfl⟩⟩
  rw [render, Run.events_bind_of_ok hfound, Run.events_bind_of_ok hcontext,
    events_foldlM_process hreads, Run.events_pure, List.append_nil]

end EnvTemplates
