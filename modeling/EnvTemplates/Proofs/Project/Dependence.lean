import EnvTemplates.Proofs.FileTree.Agreement
import EnvTemplates.Proofs.Project.Cycles
import EnvTemplates.Proofs.Project.Warnings

/-!
# What a rendering depends on

A project is rendered from its templates, and each template from its own text. In a tree without
links, files with other names may come, go and change: the walk passes over them, so that the same
templates are found and read as before, or the same error ends the run (`result_render_agreeOn`).
And what a template contributes to a report is the same in any two
projects in which it has the same text, whatever was rendered before it
(`rendered_filter_contextOf`, `unresolved_filter_contextOf`).
-/

namespace EnvTemplates

open FileTree

/-- A name of an entry that makes a file a template. -/
def IsTemplateName (suffix : Text) (name : Name) : Prop :=
  ∃ text, Utf8.decode? name = some text ∧ suffix <:+ text

/-! ### Runs over lists -/

namespace Run

variable {α β : Type} {f g : β → α → Run β} {l : List α}

/-- Steps with the same results come to the same result, whatever they log. -/
theorem result_foldlM_congr (h : ∀ a ∈ l, ∀ b, (f b a).result = (g b a).result) :
    ∀ b, (l.foldlM f b).result = (l.foldlM g b).result := by
  induction l with
  | nil => exact fun _ => rfl
  | cons a l ih =>
    intro b
    obtain ⟨ha, hl⟩ := List.forall_mem_cons.1 h
    rw [List.foldlM_cons, List.foldlM_cons, result_bind, result_bind, ha, funext (ih hl)]

/-- Steps that change nothing can be left out. -/
theorem result_foldlM_filter {p : α → Bool}
    (h : ∀ a ∈ l, p a = false → ∀ b, (f b a).result = .ok b) :
    ∀ b, ((l.filter p).foldlM f b).result = (l.foldlM f b).result := by
  induction l with
  | nil => exact fun _ => rfl
  | cons a l ih =>
    intro b
    obtain ⟨ha, hl⟩ := List.forall_mem_cons.1 h
    rw [List.foldlM_cons, result_bind, ← funext (ih hl)]
    cases hp : p a with
    | true =>
      rw [List.filter_cons_of_pos hp, List.foldlM_cons, result_bind]
    | false =>
      rw [List.filter_cons_of_neg (Bool.eq_false_iff.1 hp), ha hp b]
      rfl

end Run

/-! ### Finding templates -/

namespace Walk

variable {s : Setting} {root path : Path} {directory : Location} {name : Name}
  {names : List Name} {t' : FileTree} {visit visit' : State → Path → Run State}

theorem result_entry (state : State) (path : Path) : (entry s visit state path).result =
    if s.excluded path (s.tree.isDirectory path) = true then .ok state
    else if s.tree.isDirectory path = true then (visit state path).result
    else if s.tree.isFile path = true ∧ isTemplate path s.suffix = true then
      .ok { state with found := state.found ++ [path] }
    else .ok state := by
  rw [entry]
  simp only [← Bool.and_eq_true]
  split
  · rfl
  · split
    · rfl
    · split <;> rfl

/-- A file that the trees differ in is passed over. -/
theorem result_entry_of_differAt (h : AgreeOn (IsTemplateName s.suffix) s.tree t')
    (hdirectory : s.tree.directoryAt? path = some directory) (hname : Path.IsName name)
    (hdiffer : DifferAt s.tree t' (directory ++ [name])) (state : State) :
    (entry s visit state (path.join ⟨name⟩)).result = .ok state := by
  obtain ⟨⟨directory', name', heq, hother⟩, hfile, -⟩ := h.differ _ hdiffer
  obtain ⟨-, hlast⟩ := List.append_inj' heq rfl
  obtain rfl := List.singleton_inj.1 hlast
  have hnot : ¬ s.tree.isDirectory (path.join ⟨name⟩) = true := by
    intro hisDirectory
    obtain ⟨l, hl⟩ := Option.isSome_iff_exists.1 hisDirectory
    obtain ⟨hlocate, hnode⟩ := directoryAt?_eq_some_iff.1 hl
    have hlink : ∀ target, s.tree.node? (directory ++ [name]) ≠ some (.link target) := by
      intro target hlink
      obtain ⟨contents, hcontents⟩ := hfile _ hlink
      cases hcontents
    obtain rfl := eq_of_locate_join_name hname (directoryAt?_eq_some_iff.1 hdirectory).1 hlink
      hlocate
    obtain ⟨contents, hcontents⟩ := hfile _ hnode
    cases hcontents
  have htemplate : ¬ isTemplate (path.join ⟨name⟩) s.suffix = true := by
    rw [isTemplate_join_name_iff hname]
    exact hother
  have hneither : ¬ (s.tree.isFile (path.join ⟨name⟩) = true ∧
      isTemplate (path.join ⟨name⟩) s.suffix = true) := fun hboth => htemplate hboth.2
  rw [result_entry, if_neg hnot, if_neg hneither, ite_self]

/-- An entry is looked at in the same way in both trees. -/
theorem result_entry_agreeOn (hlinks : LinkFree s.tree)
    (h : AgreeOn (IsTemplateName s.suffix) s.tree t')
    (hdirectory : s.tree.directoryAt? path = some directory) (hname : Path.IsName name)
    (hvisit : ∀ state path, (visit' state path).result = (visit state path).result)
    (state : State) : (entry { s with tree := t' } visit' state (path.join ⟨name⟩)).result =
      (entry s visit state (path.join ⟨name⟩)).result := by
  have hlinks' : LinkFree t' := hlinks.of_sameWays h.sameWays
  have hdirectory' : t'.directoryAt? path = some directory := by
    rw [directoryAt?_sameWays h.sameWays, hdirectory]
  have hisDirectory :
      t'.isDirectory (path.join ⟨name⟩) = s.tree.isDirectory (path.join ⟨name⟩) := by
    rw [isDirectory, isDirectory, directoryAt?_sameWays h.sameWays]
  have hfile : (t'.isFile (path.join ⟨name⟩) = true ∧
        isTemplate (path.join ⟨name⟩) s.suffix = true) ↔
      (s.tree.isFile (path.join ⟨name⟩) = true ∧
        isTemplate (path.join ⟨name⟩) s.suffix = true) := by
    apply and_congr_left
    intro htemplate
    rw [isTemplate_join_name_iff hname] at htemplate
    constructor
    · intro hfile'
      exact (h.symm.readText_join_name hlinks' htemplate hname hdirectory' hfile').1
    · intro hfile
      exact (h.readText_join_name hlinks htemplate hname hdirectory hfile).1
  rw [result_entry, result_entry, hvisit]
  simp only [hisDirectory, hfile]

theorem identity_sameWays {t : FileTree} (hways : SameWays t t')
    (h : t.directoryAt? path = some directory) : identity t' path = identity t path := by
  rw [identity, identity, canonicalize_sameWays hways h]

/-- The entries of a directory are listed in both trees, or in none of them. -/
theorem result_entries (path : Path) (directory : Location) : (entries s path directory).result =
    match s.tree.refusal? .list directory with
    | some cause => .error (.io cause)
    | none => .ok ((s.tree.names directory).map fun name => path.join ⟨name⟩) := by
  cases hrefusal : s.tree.refusal? .list directory with
  | some cause => exact entries_eq_error_iff.2 ⟨cause, hrefusal, rfl⟩
  | none => exact entries_eq_ok_iff.2 ⟨hrefusal, rfl⟩

/-- The step lemma: in a directory the walk comes to the same result in both trees. The names that
one of them has and the other has not are those of files that are passed over. -/
theorem result_foldlM_entry_agreeOn (hlinks : LinkFree s.tree)
    (h : AgreeOn (IsTemplateName s.suffix) s.tree t')
    (hdirectory : s.tree.directoryAt? path = some directory)
    (hvisit : ∀ state path, (visit' state path).result = (visit state path).result)
    (state : State) :
    ((t'.names directory).foldlM (fun state name =>
        entry { s with tree := t' } visit' state (path.join ⟨name⟩)) state).result =
      ((s.tree.names directory).foldlM
        (fun state name => entry s visit state (path.join ⟨name⟩)) state).result := by
  have hdirectory' : t'.directoryAt? path = some directory := by
    rw [directoryAt?_sameWays h.sameWays, hdirectory]
  rw [← Run.result_foldlM_filter (p := (· ∈ s.tree.names directory)), filter_names_comm,
    ← Run.result_foldlM_filter (p := (· ∈ t'.names directory)) (l := s.tree.names directory)]
  · apply Run.result_foldlM_congr
    intro name hname state
    have hname := isName_of_mem_names (List.mem_of_mem_filter hname)
    exact result_entry_agreeOn hlinks h hdirectory hname hvisit state
  · intro name hname hmissing state
    exact result_entry_of_differAt h hdirectory (isName_of_mem_names hname)
      (differAt_of_mem_names hname (of_decide_eq_false hmissing)) state
  · intro name hname hmissing state
    exact result_entry_of_differAt (s := { s with tree := t' }) h.symm hdirectory'
      (isName_of_mem_names hname)
      (differAt_of_mem_names hname (of_decide_eq_false hmissing)) state

/-- One call comes to the same result in both trees, if the calls that it makes do. -/
theorem result_step_agreeOn (hlinks : LinkFree s.tree)
    (h : AgreeOn (IsTemplateName s.suffix) s.tree t')
    (hvisit : ∀ state path, (visit' state path).result = (visit state path).result)
    (state : State) (path : Path) :
    (step { s with tree := t' } visit' state path).result = (step s visit state path).result := by
  have hways := h.sameWays
  have hdirectoryAt : t'.directoryAt? path = s.tree.directoryAt? path :=
    directoryAt?_sameWays hways path
  rw [step, step, hdirectoryAt]
  cases hdirectory : s.tree.directoryAt? path with
  | none => rfl
  | some directory =>
    have hnotFile : ∀ bytes, Node.directory ≠ .file bytes := by
      intro bytes heq
      cases heq
    have hsame := h.not_differAt_of_node? hnotFile (directoryAt?_eq_some_iff.1 hdirectory).2
    have hrefusal := (eq_of_not_differAt hsame).2 .list
    have hidentity : identity t' path = identity s.tree path :=
      identity_sameWays hways hdirectory
    simp only [hidentity]
    split
    · rfl
    · rw [Run.result_bind, Run.result_bind, result_entries, result_entries, hrefusal]
      cases s.tree.refusal? .list directory with
      | some cause => rfl
      | none =>
        simp only [Except.bind]
        rw [Run.result_bind, Run.result_bind, List.foldlM_map, List.foldlM_map,
          result_foldlM_entry_agreeOn hlinks h hdirectory hvisit]

/-- **A walk comes to the same result in trees that agree on the names of templates**, also if it
fails. -/
theorem result_visit_agreeOn (hlinks : LinkFree s.tree)
    (h : AgreeOn (IsTemplateName s.suffix) s.tree t') (depth : Nat) : ∀ state path,
    (Walk.visit { s with tree := t' } depth state path).result =
      (Walk.visit s depth state path).result := by
  induction depth with
  | zero =>
    intro state path
    rfl
  | succ depth ih => exact result_step_agreeOn hlinks h ih

theorem result_templates_agreeOn (hlinks : LinkFree s.tree)
    (h : AgreeOn (IsTemplateName s.suffix) s.tree t') (root : Path) :
    (templates { s with tree := t' } root).result = (templates s root).result := by
  rw [templates, templates, Run.result_bind, Run.result_bind, result_visit_agreeOn hlinks h]

/-- The last of the names that lead to a template, and the directory that it stands in. -/
theorem IsSelected.exists_last (h : IsSelected s root names) :
    ∃ front last directory, names = front ++ [last] ∧ IsTemplateName s.suffix last ∧
      Path.IsName last ∧ s.tree.directoryAt? (root.joinAll front) = some directory ∧
      root.joinAll names = (root.joinAll front).join ⟨last⟩ := by
  obtain ⟨front, last, text, rfl, htext⟩ := h.suffix
  have hentry := h.entries front last [] rfl
  have hname := hentry.isName
  obtain ⟨directory, hdirectory, -⟩ := hentry
  exact ⟨front, last, directory, rfl, ⟨text, htext⟩, hname, hdirectory,
    Path.joinAll_append root front [last]⟩

end Walk

/-! ### Rendering them -/

variable {t t' : FileTree} {root : Path} {definitions : Definitions} {options : Options}

theorem result_collect_agreeOn (hlinks : LinkFree t)
    (h : AgreeOn (IsTemplateName options.templateSuffix) t t') :
    (collect t' root options).result = (collect t root options).result := by
  cases hrules : ExcludeRule.parseAll options.exclude with
  | error problem =>
    have herror : ∀ t, (collect t root options).result = .error (.configParse problem) := by
      intro t
      rw [collect, hrules]
      rfl
    rw [herror, herror]
  | ok rules =>
    rw [collect_eq_templates hrules, collect_eq_templates hrules]
    exact Walk.result_templates_agreeOn (s := ⟨t, _, _⟩) hlinks h root

/-- A template that is found has the same text where other files differ. -/
theorem readText_agreeOn (hlinks : LinkFree t)
    (h : AgreeOn (IsTemplateName options.templateSuffix) t t') {found : List Path}
    (hfound : (collect t root options).result = .ok found) :
    ∀ template ∈ found, t'.readText template = t.readText template := by
  obtain ⟨rules, -, hwalk⟩ := Run.result_bind_eq_ok.1 hfound
  intro template htemplate
  obtain ⟨names, hselected, rfl⟩ := ((Walk.isExact_of_templates hwalk).mem_iff _).1 htemplate
  obtain ⟨front, last, directory, -, hlast, hname, hdirectory, hjoin⟩ := hselected.exists_last
  have hfile := hselected.file
  rw [hjoin] at hfile ⊢
  exact (h.readText_join_name hlinks hlast hname hdirectory hfile).2

/-- Rendering looks at a tree only to read the templates. -/
theorem foldlM_process_congr {templates : List Path}
    (h : ∀ template ∈ templates, t'.readText template = t.readText template) :
    ∀ context, templates.foldlM (process t' definitions options) context =
      templates.foldlM (process t definitions options) context := by
  induction templates with
  | nil => exact fun _ => rfl
  | cons template templates ih =>
    intro context
    obtain ⟨hfirst, hrest⟩ := List.forall_mem_cons.1 h
    rw [List.foldlM_cons, List.foldlM_cons, process, process, hfirst, funext (ih hrest)]

/-- **Rendering depends on the templates alone.** -/
theorem result_render_agreeOn (hlinks : LinkFree t)
    (h : AgreeOn (IsTemplateName options.templateSuffix) t t') (root : Path)
    (definitions : Definitions) :
    (render t' root definitions options).result = (render t root definitions options).result := by
  rw [render, render, Run.result_bind, Run.result_bind, result_collect_agreeOn hlinks h]
  cases hfound : (collect t root options).result with
  | error e => rfl
  | ok found =>
    simp only [Except.bind, foldlM_process_congr (readText_agreeOn hlinks h hfound)]

/-! ### One template among others -/

section Sources

variable {sources : List Source} {s : Source}

/-- Among templates with distinct paths, a path picks one. -/
theorem filter_path_eq_singleton (hdistinct : (sources.map (·.path)).Nodup) (hs : s ∈ sources) :
    sources.filter (fun s' => s'.path = s.path) = [s] := by
  obtain ⟨before, after, rfl⟩ := List.append_of_mem hs
  rw [List.map_append, List.map_cons, List.nodup_middle, List.nodup_cons,
    ← List.map_append] at hdistinct
  have hothers : ∀ s' ∈ before ++ after, s'.path ≠ s.path := by
    intro s' hs' heq
    exact hdistinct.1 (heq ▸ List.mem_map_of_mem hs')
  have hnone : ∀ l, l ⊆ before ++ after → l.filter (fun s' => s'.path = s.path) = [] := by
    intro l hl
    rw [List.filter_eq_nil_iff]
    intro s' hs' heq
    exact hothers s' (hl hs') (of_decide_eq_true heq)
  rw [List.filter_append, List.filter_cons_of_pos (by simp), hnone before (by simp),
    hnone after (by simp)]
  rfl

/-- What is rendered from a template, whatever else is rendered. -/
theorem rendered_filter_contextOf (hdistinct : (sources.map (·.path)).Nodup) (hs : s ∈ sources) :
    (Source.contextOf definitions options sources).rendered.filter (fun r => r.template = s.path) =
      [s.rendered definitions options] := by
  have hsame : ((fun r : Rendered => decide (r.template = s.path)) ∘
      Source.rendered definitions options) = fun s' : Source => decide (s'.path = s.path) := rfl
  rw [Source.contextOf, List.filter_map, hsame, filter_path_eq_singleton hdistinct hs]
  rfl

theorem unresolved_filter_flatMap (vars : Variables) (path : Path) (sources : List Source) :
    (sources.flatMap fun s => (s.unresolved vars).map fun key =>
        (⟨key, s.path⟩ : UnresolvedKey)).filter (fun u => u.file = path) =
      (sources.filter fun s => s.path = path).flatMap fun s =>
        (s.unresolved vars).map fun key => ⟨key, s.path⟩ := by
  induction sources with
  | nil => rfl
  | cons s sources ih =>
    rw [List.flatMap_cons, List.filter_append, ih]
    by_cases hpath : s.path = path
    · rw [List.filter_cons_of_pos (by simpa using hpath), List.flatMap_cons]
      simp [hpath]
    · rw [List.filter_cons_of_neg (by simpa using hpath)]
      simp [hpath]

/-- What is unresolved in a template, whatever else is rendered. -/
theorem unresolved_filter_contextOf (hdistinct : (sources.map (·.path)).Nodup)
    (hs : s ∈ sources) :
    (Source.contextOf definitions options sources).unresolved.filter (fun u => u.file = s.path) =
      (s.unresolved definitions.vars).map fun key => ⟨key, s.path⟩ := by
  rw [Source.contextOf, unresolved_filter_flatMap, filter_path_eq_singleton hdistinct hs,
    List.flatMap_singleton]

end Sources

theorem nodup_of_collect {found : List Path} (h : (collect t root options).result = .ok found) :
    found.Nodup := by
  obtain ⟨rules, -, hwalk⟩ := Run.result_bind_eq_ok.1 h
  exact (Walk.isExact_of_templates hwalk).nodup

/-- What a rendered template contributes to a report: a single entry, and the placeholders of the
template that nothing was replaced for. -/
theorem contribution_of_render {report : Report} {found : List Path} {template : Path} {text : Text}
    (h : (render t root definitions options).result = .ok report)
    (hfound : (collect t root options).result = .ok found) (htemplate : template ∈ found)
    (htext : t.readText template = .ok text) :
    report.rendered.filter (fun r => r.template = template) =
        [Source.rendered definitions options ⟨template, text⟩] ∧
      report.unresolvedKeys.filter (fun u => u.file = template) =
        (Source.unresolved definitions.vars ⟨template, text⟩).map fun key => ⟨key, template⟩ := by
  obtain ⟨sources, hpaths, hreads, rfl⟩ := render_eq_ok_iff.1 h
  rw [hfound, Except.ok.injEq] at hpaths
  subst hpaths
  have hdistinct := nodup_of_collect hfound
  obtain ⟨s, hs, rfl⟩ := List.mem_map.1 htemplate
  rw [hreads s hs, Except.ok.injEq] at htext
  subst htext
  rw [RunContext.unresolvedKeys_finish]
  exact ⟨rendered_filter_contextOf hdistinct hs, unresolved_filter_contextOf hdistinct hs⟩

/-- **A rendering depends only on the templates, and what comes of a template only on itself.** If a
tree without links differs from another one only in files that are no templates, rendering gives
the same report for both, or the same error. And whatever else two trees hold, a template that is
found in both, with the same text, has one entry in each of the reports, which is the same, and the
same warnings about placeholders. -/
theorem render_depends_on_templates (t t' : FileTree) (root : Path) (definitions : Definitions)
    (options : Options) :
    (LinkFree t → AgreeOn (IsTemplateName options.templateSuffix) t t' →
      (render t' root definitions options).result =
        (render t root definitions options).result) ∧
    ∀ report report' found found' template text,
      (render t root definitions options).result = .ok report →
      (render t' root definitions options).result = .ok report' →
      (collect t root options).result = .ok found → template ∈ found →
      (collect t' root options).result = .ok found' → template ∈ found' →
      t.readText template = .ok text → t'.readText template = .ok text →
      (∃ r, report.rendered.filter (fun r => r.template = template) = [r] ∧
        report'.rendered.filter (fun r => r.template = template) = [r]) ∧
      report'.unresolvedKeys.filter (fun u => u.file = template) =
        report.unresolvedKeys.filter (fun u => u.file = template) := by
  constructor
  · intro hlinks h
    exact result_render_agreeOn hlinks h root definitions
  · intro report report' found found' template text h h' hfound hmem hfound' hmem' htext htext'
    obtain ⟨hentry, hunresolved⟩ := contribution_of_render h hfound hmem htext
    obtain ⟨hentry', hunresolved'⟩ := contribution_of_render h' hfound' hmem' htext'
    exact ⟨⟨_, hentry, hentry'⟩, hunresolved'.trans hunresolved.symm⟩

/-- A project with one template. -/
def alone : FileTree where
  entries := [([Utf8.encode "a.envt".toList],
    .file (Utf8.encode "<$\x7bA\x7d$\x7bB\x7d>".toList))]
  named := by decide

/-- The same, with a file of the name of the output. -/
def accompanied : FileTree where
  entries := ([Utf8.encode "a".toList], .file [0xFF]) :: alone.entries
  distinct := by decide
  named := by decide

/-- The same, with another template before the one. -/
def preceded : FileTree where
  entries := ([Utf8.encode "0.envt".toList], .file (Utf8.encode "$\x7bB\x7d".toList)) ::
    alone.entries
  distinct := by decide
  named := by decide

theorem agreeOn_accompanied :
    AgreeOn (IsTemplateName defaultTemplateSuffix) alone accompanied := by
  have hname : ¬ IsTemplateName defaultTemplateSuffix (Utf8.encode "a".toList) := by
    rintro ⟨text, htext, hsuffix⟩
    have hdecode : Utf8.decode? (Utf8.encode "a".toList) = some "a".toList := by cbv
    rw [hdecode, Option.some.injEq] at htext
    subst htext
    revert hsuffix
    decide
  refine ⟨rfl, fun l hl => ?_⟩
  -- The trees differ in the first entry of the second one.
  have hplace : l = [Utf8.encode "a".toList] := by
    rcases hl with hnode | ⟨access, hrefusal⟩
    · by_contra hne
      apply hnode
      rw [node?, node?, accompanied, lookup_cons_eq_ite, if_neg hne]
    · exact absurd rfl hrefusal
  subst hplace
  refine ⟨⟨[], _, rfl, hname⟩, ?_, ?_⟩
  · intro n hn
    have hnone : alone.node? [Utf8.encode "a".toList] = none := by decide
    rw [hnone] at hn
    cases hn
  · intro n hn
    exact ⟨_, (Option.some.inj hn).symm⟩

/-- What the template is rendered to, in each of the three projects. -/
def aloneRendered : Rendered :=
  ⟨.ofText "./a.envt".toList, .ofText "./a".toList, "<$\x7bB\x7d>".toList, 1⟩

def aloneReport : Report where
  rendered := [aloneRendered]
  counts := [⟨"X $\x7bA".toList, 0⟩, ⟨"A".toList, 1⟩]
  warnings := [.unusedVariable "X $\x7bA".toList,
    .unresolved ⟨"B".toList, .ofText "./a.envt".toList⟩]

def precededReport : Report where
  rendered := [⟨.ofText "./0.envt".toList, .ofText "./0".toList, "$\x7bB\x7d".toList, 0⟩,
    aloneRendered]
  counts := [⟨"X $\x7bA".toList, 0⟩, ⟨"A".toList, 1⟩]
  warnings := [.unusedVariable "X $\x7bA".toList,
    .unresolved ⟨"B".toList, .ofText "./0.envt".toList⟩,
    .unresolved ⟨"B".toList, .ofText "./a.envt".toList⟩]

/-- The file that is no template does not matter, and neither does the template that comes first:
it has a warning of its own about the same placeholder. -/
theorem render_depends_on_templates_alone :
    (render accompanied ⟨Path.dot⟩ nestedDefinitions {}).result = .ok aloneReport ∧
    ∃ report : Report, (render preceded ⟨Path.dot⟩ nestedDefinitions {}).result = .ok report ∧
      report.rendered.length = 2 ∧
      report.rendered.filter (fun r => r.template = .ofText "./a.envt".toList) = [aloneRendered] ∧
      report.unresolvedKeys.filter (fun u => u.file = .ofText "./a.envt".toList) =
        [⟨"B".toList, .ofText "./a.envt".toList⟩] := by
  have halone : (render alone ⟨Path.dot⟩ nestedDefinitions {}).result = .ok aloneReport := by
    cbv
  have hpreceded : (render preceded ⟨Path.dot⟩ nestedDefinitions {}).result =
      .ok precededReport := by
    cbv
  have hlinks : LinkFree alone := by
    apply linkFree_of_entries
    simp [alone]
  have hsame := (render_depends_on_templates alone accompanied ⟨Path.dot⟩ nestedDefinitions {}).1
    hlinks agreeOn_accompanied
  obtain ⟨⟨r, hr, hr'⟩, hunresolved⟩ :=
    (render_depends_on_templates alone preceded ⟨Path.dot⟩ nestedDefinitions {}).2 aloneReport
      precededReport [.ofText "./a.envt".toList]
      [.ofText "./0.envt".toList, .ofText "./a.envt".toList] (.ofText "./a.envt".toList)
      "<$\x7bA\x7d$\x7bB\x7d>".toList halone hpreceded (by cbv) List.mem_cons_self (by cbv)
      (List.mem_cons_of_mem _ List.mem_cons_self) (by cbv) (by cbv)
  have hentry : [r] = [aloneRendered] := hr.symm.trans (by decide)
  refine ⟨hsame.trans halone, precededReport, hpreceded, rfl, hr'.trans hentry, ?_⟩
  rw [hunresolved]
  decide

end EnvTemplates
