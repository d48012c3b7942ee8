import EnvTemplates.Proofs.FileTree.LinkFree
import EnvTemplates.Proofs.Naming
import EnvTemplates.Proofs.Project.Atomicity
import EnvTemplates.Proofs.Project.Discovery

/-!
# What outputs overwrite

Nothing keeps two templates from having the same output, or an output from being a template itself:
a run overwrites what stands at the path of an output, and the last output stays. In a tree without
links nothing else is lost (`run_overwrites`). Every template stands below the root under the names
that lead to it, its output stands next to it (`placed_of_isSelected`), and so an output goes to the
place of another one, or of a template, only if they have the same path.
-/

namespace EnvTemplates

open FileTree

variable {t : FileTree} {root : Path} {base : Location} {definitions : Definitions}
  {options : Options} {report : Report}

/-- Where a rendered template and its output stand: below the root, under the names in their
paths. -/
structure Placed (t : FileTree) (root : Path) (base : Location) (r : Rendered) : Prop where
  template : ∃ l contents, t.locate r.template = .ok l ∧ t.node? l = some (.file contents) ∧
    IsBelow root base r.template l
  output : ∀ l, t.destination r.output = .ok l → IsBelow root base r.output l
  /-- The output is read where it is written. -/
  reads : ∀ l final contents, t.destination r.output = .ok l → SameWays t final →
    final.node? l = some (.file contents) → final.read r.output = .ok contents

/-- The output of a template is a sibling of the template. -/
theorem exists_sibling_of_rendered (options : Options)
    (henvironment : '/' ∉ definitions.environment) (path : Path) {name : Name}
    (hname : Path.IsName name) (text : Text) :
    ∃ (q : Path) (part : Bytes), q.components = path.components ∧ Path.slash ∉ part ∧
      (Source.rendered definitions options ⟨path.join ⟨name⟩, text⟩).output = q.join ⟨part⟩ := by
  obtain ⟨q, hparent, hcomponents⟩ := Path.components_parent?_join_name hname (p := path)
  refine ⟨q, Utf8.encode (outputName ((path.join ⟨name⟩).fileNameText?.getD [])
    definitions.environment options.templateSuffix), hcomponents, ?_, ?_⟩
  · rw [slash_mem_encode_iff]
    apply slash_notMem_outputName _ _ henvironment
    cases hfile : (path.join ⟨name⟩).fileNameText? with
    | none => exact List.not_mem_nil
    | some file => exact Path.slash_notMem_fileNameText? hfile
  · simp only [Source.rendered, outputPath, hparent, Option.getD_some, Path.ofText]

/-- What a walk finds stands below its root, and so does what it is rendered to. -/
theorem placed_of_isSelected (hlinks : LinkFree t) (henvironment : '/' ∉ definitions.environment)
    (hroot : t.directoryAt? root = some base) {s : Walk.Setting} (htree : s.tree = t)
    {names : List Name} (hselected : Walk.IsSelected s root names) (text : Text) :
    Placed t root base (Source.rendered definitions options ⟨root.joinAll names, text⟩) := by
  subst htree
  obtain ⟨front, last, -, rfl, -⟩ := hselected.suffix
  obtain ⟨directory, hdirectory, hlast⟩ := hselected.entries front last [] rfl
  have hentries : ∀ front' name more, front ++ [last] = front' ++ name :: more →
      Path.IsName name ∧ ∃ d, s.tree.directoryAt? (root.joinAll front') = some d := by
    intro front' name more hsplit
    have hentry := hselected.entries front' name more hsplit
    refine ⟨hentry.isName, ?_⟩
    obtain ⟨d, hd, -⟩ := hentry
    exact ⟨d, hd⟩
  have hbase : directory = base ++ front := by
    apply location_joinAll hlinks hroot _ (directoryAt?_eq_some_iff.1 hdirectory).1
    intro front' name more hsplit
    apply hentries front' name (more ++ [last])
    rw [hsplit, List.append_assoc, List.cons_append]
  have hjoin : root.joinAll (front ++ [last]) = (root.joinAll front).join ⟨last⟩ :=
    Path.joinAll_append root front [last]
  obtain ⟨q, part, hcomponents, hslash, houtput⟩ := exists_sibling_of_rendered options
    henvironment (root.joinAll front) (isName_of_mem_names hlast) text
  rw [← hjoin] at houtput
  refine ⟨?_, ?_, ?_⟩
  · obtain ⟨contents, hread⟩ := isFile_iff.1 hselected.file
    obtain ⟨l, hlocate, hnode⟩ := read_eq_ok_iff.1 hread
    refine ⟨l, contents, hlocate, hnode, ?_⟩
    rw [location_joinAll hlinks hroot hentries hlocate]
    exact isBelow_joinAll hselected.isName base
  · intro l hl
    rw [houtput] at hl ⊢
    have hname := isName_of_destination_join hslash hl
    refine ⟨front ++ [part], ?_, ?_⟩
    · rw [destination_sibling hlinks hdirectory hcomponents hslash hl, hbase, List.append_assoc]
    · have hfront : ∀ name ∈ front, Path.IsName name :=
        fun name hmem => hselected.isName name (List.mem_append_left _ hmem)
      rw [Path.components_join_name hname, hcomponents, Path.components_joinAll hfront,
        List.map_append, List.append_assoc]
      rfl
  · intro l final contents hl hways hnode
    rw [houtput] at hl ⊢
    rw [destination_sibling hlinks hdirectory hcomponents hslash hl] at hnode
    exact read_sibling hdirectory hcomponents hslash hl hways hnode

/-- A run that succeeds has rendered all templates, and written all outputs. -/
theorem isWritten_of_run (h : (run t root definitions options).2.result = .ok report) :
    (render t root definitions options).result = .ok report ∧
      IsWritten t report.rendered (run t root definitions options).1 := by
  cases hrender : (render t root definitions options).result with
  | error e =>
    rw [run_of_error hrender, hrender] at h
    cases h
  | ok rendered =>
    obtain ⟨hrun, hresult⟩ := run_of_ok hrender
    rw [hresult] at h
    rw [hrun]
    rcases writeAll_cases rendered.rendered t with ⟨hok, hwritten⟩ |
      ⟨_, _, _, _, _, _, herror, _⟩
    · rw [hok] at h
      cases h
      exact ⟨rfl, isWritten_of_foldlM hwritten⟩
    · rw [herror] at h
      cases h

/-- The rendered templates are those that were found, and have been read. -/
theorem templates_of_render (h : (render t root definitions options).result = .ok report) :
    (collect t root options).result = .ok (report.rendered.map (·.template)) ∧
      ∀ r ∈ report.rendered, ∃ text, t.readText r.template = .ok text := by
  obtain ⟨sources, hfound, hreads, rfl⟩ := render_eq_ok_iff.1 h
  have htemplates : (Source.contextOf definitions options sources).finish.rendered.map
      (·.template) = sources.map (·.path) := List.map_map
  refine ⟨htemplates ▸ hfound, fun r hr => ?_⟩
  obtain ⟨s, hs, rfl⟩ := List.mem_map.1 hr
  exact ⟨s.text, hreads s hs⟩

/-- The rendered templates and their outputs stand below the root. -/
theorem exists_placed_of_render (hlinks : LinkFree t) (henvironment : '/' ∉ definitions.environment)
    (h : (render t root definitions options).result = .ok report) :
    ∃ base, ∀ r ∈ report.rendered, Placed t root base r := by
  obtain ⟨sources, hfound, -, rfl⟩ := render_eq_ok_iff.1 h
  obtain ⟨rules, -, hwalk⟩ := Run.result_bind_eq_ok.1 hfound
  have hexact := Walk.isExact_of_templates hwalk
  have hselected : ∀ s ∈ sources, ∃ names, s.path = root.joinAll names ∧ Walk.IsSelected
      ⟨t, options.templateSuffix, excludedBy rules root⟩ root names := by
    intro s hs
    obtain ⟨names, hselected, hpath⟩ := (hexact.mem_iff _).1 (List.mem_map_of_mem hs)
    exact ⟨names, hpath, hselected⟩
  -- Either there is no template, or the root is a directory.
  cases hroot : t.directoryAt? root with
  | none =>
    refine ⟨[], fun r hr => ?_⟩
    obtain ⟨s, hs, -⟩ := List.mem_map.1 hr
    obtain ⟨names, -, hnames⟩ := hselected s hs
    obtain ⟨name, rest, rfl⟩ := List.exists_cons_of_ne_nil hnames.ne_nil
    obtain ⟨directory, hdirectory, -⟩ := hnames.entries [] name rest rfl
    have hsome : t.directoryAt? root = some directory := hdirectory
    rw [hroot] at hsome
    cases hsome
  | some base =>
    refine ⟨base, fun r hr => ?_⟩
    obtain ⟨⟨path, text⟩, hs, rfl⟩ := List.mem_map.1 hr
    obtain ⟨names, rfl, hnames⟩ := hselected _ hs
    exact placed_of_isSelected hlinks henvironment hroot rfl hnames text

/-- **What a successful run overwrites.** In a tree without links, the output of every rendered
template holds its content, unless a later output has the same path; and every template that was
found still holds its text, unless it has the path of an output. -/
theorem run_overwrites {path : Path} {suffix : Text} (hlinks : LinkFree t)
    (henvironment : Definitions.environmentName path suffix = .ok definitions.environment)
    (h : (run t root definitions options).2.result = .ok report) :
    (collect t root options).result = .ok (report.rendered.map (·.template)) ∧
    (∀ before r after, report.rendered = before ++ r :: after →
      (∀ r' ∈ after, r'.output.components ≠ r.output.components) →
      (run t root definitions options).1.read r.output = .ok (Utf8.encode r.content)) ∧
    ∀ r ∈ report.rendered,
      (∀ r' ∈ report.rendered, r'.output.components ≠ r.template.components) →
      ∃ text, t.readText r.template = .ok text ∧
        (run t root definitions options).1.readText r.template = .ok text := by
  obtain ⟨hrender, hwritten⟩ := isWritten_of_run h
  obtain ⟨hfound, hreads⟩ := templates_of_render hrender
  obtain ⟨base, hplaced⟩ := exists_placed_of_render hlinks
    (Definitions.slash_notMem_environmentName henvironment) hrender
  refine ⟨hfound, ?_, ?_⟩
  · intro before r after hsplit hlater
    have hmem : ∀ r' ∈ r :: after, r' ∈ report.rendered := by
      intro r' hr'
      rw [hsplit]
      exact List.mem_append_right _ hr'
    have hr := hplaced r (hmem r List.mem_cons_self)
    obtain ⟨l, hl, -⟩ := hwritten.target r (hmem r List.mem_cons_self)
    apply hr.reads l _ _ hl hwritten.sameWays
    apply hwritten.last before r after l hsplit hl
    -- An output that goes to the same place has the same path.
    intro r' hr' hl'
    have hbelow := (hplaced r' (hmem r' (List.mem_cons_of_mem _ hr'))).output l hl'
    exact hlater r' hr' ((hbelow.eq_iff (hr.output l hl)).1 rfl)
  · intro r hr hother
    obtain ⟨l, contents, hlocate, hnode, hbelow⟩ := (hplaced r hr).template
    have huntouched : (run t root definitions options).1.node? l = t.node? l := by
      apply hwritten.untouched
      intro r' hr' hl'
      exact hother r' hr' ((((hplaced r' hr').output l hl').eq_iff hbelow).1 rfl)
    have hsome : (t.node? l).isSome := by
      rw [hnode]
      rfl
    obtain ⟨text, htext⟩ := hreads r hr
    refine ⟨text, htext, ?_⟩
    obtain ⟨l', contents', hlocate', hpermit, hnode', hdecode⟩ := readText_eq_ok_iff.1 htext
    obtain rfl := Except.ok.inj (hlocate'.symm.trans hlocate)
    rw [← huntouched] at hnode'
    rw [← refusal?_congr (faults_foldlM_writeOutput hwritten.inOrder)] at hpermit
    exact readText_eq_ok_iff.2 ⟨l', contents',
      ((hwritten.located r.template l' hsome).2).2 hlocate, hpermit, hnode', hdecode⟩

/-- The output of `a.envt.envt` is the template `a.envt`, and the two others have the same
output. -/
def colliding : FileTree where
  entries := [([Utf8.encode "a.envt".toList], .file (Utf8.encode "1".toList)),
    ([Utf8.encode "a.envt.envt".toList], .file (Utf8.encode "2".toList)),
    ([Utf8.encode "b.env.x.envt".toList], .file (Utf8.encode "3".toList)),
    ([Utf8.encode "b.prod.x.envt".toList], .file (Utf8.encode "4".toList))]
  distinct := by decide
  named := by decide

def prodDefinitions : Definitions where
  environment := "prod".toList
  path := .ofText "prod.env".toList
  vars := .ofList []

/-- What the templates are rendered to. -/
def collidingReport : Report where
  rendered := [⟨.ofText "./a.envt".toList, .ofText "./a".toList, "1".toList, 0⟩,
    ⟨.ofText "./a.envt.envt".toList, .ofText "./a.envt".toList, "2".toList, 0⟩,
    ⟨.ofText "./b.env.x.envt".toList, .ofText "./b.prod.x".toList, "3".toList, 0⟩,
    ⟨.ofText "./b.prod.x.envt".toList, .ofText "./b.prod.x".toList, "4".toList, 0⟩]
  counts := []
  warnings := []

theorem linkFree_colliding : LinkFree colliding := by
  apply linkFree_of_entries
  simp [colliding]

theorem environmentName_prod : Definitions.environmentName prodDefinitions.path ".env".toList =
    .ok prodDefinitions.environment := by
  cbv

/-- What is left of the run: its result, the output that two templates share, and the template that
is overwritten. -/
theorem run_colliding :
    (run colliding ⟨Path.dot⟩ prodDefinitions {}).2.result = .ok collidingReport ∧
    (run colliding ⟨Path.dot⟩ prodDefinitions {}).1.read (.ofText "./b.prod.x".toList) =
      .ok (Utf8.encode "4".toList) ∧
    (run colliding ⟨Path.dot⟩ prodDefinitions {}).1.readText (.ofText "./a.envt".toList) =
      .ok "2".toList := by
  -- The run is evaluated once for all three.
  have hall : (fun after : FileTree × Run Report =>
        (after.2.result, after.1.read (.ofText "./b.prod.x".toList),
          after.1.readText (.ofText "./a.envt".toList)))
        (run colliding ⟨Path.dot⟩ prodDefinitions {}) =
      (.ok collidingReport, .ok (Utf8.encode "4".toList), .ok "2".toList) := by
    cbv
  exact ⟨congrArg (·.1) hall, congrArg (·.2.1) hall, congrArg (·.2.2) hall⟩

/-- Outputs that collide are lost: the first of two that have the same path, and the text of a
template that has the path of an output. -/
theorem run_loses_colliding :
    LinkFree colliding ∧ defaultTemplateSuffix ≠ [] ∧
    Definitions.environmentName prodDefinitions.path ".env".toList =
      .ok prodDefinitions.environment ∧
    (run colliding ⟨Path.dot⟩ prodDefinitions {}).2.result = .ok collidingReport ∧
    (∃ r ∈ collidingReport.rendered, (run colliding ⟨Path.dot⟩ prodDefinitions {}).1.read r.output ≠
      .ok (Utf8.encode r.content)) ∧
    ∃ r ∈ collidingReport.rendered, colliding.readText r.template = .ok "1".toList ∧
      (run colliding ⟨Path.dot⟩ prodDefinitions {}).1.readText r.template = .ok "2".toList := by
  obtain ⟨hresult, hread, htext⟩ := run_colliding
  refine ⟨linkFree_colliding, by decide, environmentName_prod, hresult,
    ⟨_, List.mem_of_getElem? (i := 2) rfl, ?_⟩, ⟨_, List.mem_cons_self, by cbv, htext⟩⟩
  show (run colliding ⟨Path.dot⟩ prodDefinitions {}).1.read (.ofText "./b.prod.x".toList) ≠
    .ok (Utf8.encode "3".toList)
  rw [hread]
  decide

/-- What does not collide is kept: the last output, and a template that no output has the path
of. -/
theorem run_overwrites_colliding :
    (run colliding ⟨Path.dot⟩ prodDefinitions {}).1.read (.ofText "./b.prod.x".toList) =
      .ok (Utf8.encode "4".toList) ∧
    ∃ text, colliding.readText (.ofText "./b.env.x.envt".toList) = .ok text ∧
      (run colliding ⟨Path.dot⟩ prodDefinitions {}).1.readText
        (.ofText "./b.env.x.envt".toList) = .ok text := by
  obtain ⟨-, houtputs, htemplates⟩ :=
    run_overwrites linkFree_colliding environmentName_prod run_colliding.1
  constructor
  · exact houtputs (collidingReport.rendered.take 3) _ [] rfl nofun
  · exact htemplates _ (List.mem_of_getElem? (i := 2) rfl) (by decide)

end EnvTemplates
