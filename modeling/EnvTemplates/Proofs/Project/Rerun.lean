import EnvTemplates.Proofs.Project.Dependence
import EnvTemplates.Proofs.Project.Outputs

/-!
# Running again

A run whose outputs are no templates leaves the templates as they were, so that a second run renders
what the first one has rendered (`agreeOn_of_isWritten`). It then writes all outputs once more, in
the same order. Where several of them go to the same place, each is overwritten again by the next
one, and the tree comes out as it was (`foldlM_writeOutput_again`).
-/

namespace EnvTemplates

open FileTree

variable {t final : FileTree} {root : Path} {definitions : Definitions} {options : Options}
  {report : Report} {rs : List Rendered}

namespace FileTree

/-! ### Writing again -/

/-- An output can be written: its file is opened, and there is room for all of it. -/
def IsWritable (t : FileTree) (r : Rendered) (l : Location) : Prop :=
  t.openFile r.output = .ok l ∧ t.Takes l (Utf8.encode r.content).length

theorem writeOutput_eq_ok_iff_isWritable {t mid : FileTree} {r : Rendered} :
    t.writeOutput r = .ok mid ↔
      ∃ l, IsWritable t r l ∧ mid = t.set l (.file (Utf8.encode r.content)) := by
  rw [writeOutput_eq_ok_iff, write_eq_ok_iff]
  simp only [IsWritable, and_assoc]

theorem isWritable_sameWays {t t' : FileTree} (hways : SameWays t t')
    (hfaults : t'.faults = t.faults) {r : Rendered} {l : Location} :
    IsWritable t' r l ↔ IsWritable t r l := by
  rw [IsWritable, IsWritable, openFile_sameWays hways hfaults]
  exact and_congr_right fun _ => ⟨fun h => h.congr hfaults.symm, fun h => h.congr hfaults⟩

/-- Outputs can be written one after the other if each of them can be. -/
theorem exists_foldlM_writeOutput : ∀ {t : FileTree}, (∀ r ∈ rs, ∃ l, IsWritable t r l) →
    ∃ final, rs.foldlM writeOutput t = .ok final := by
  induction rs with
  | nil => exact fun {t} _ => ⟨t, rfl⟩
  | cons r rs ih =>
    intro t h
    obtain ⟨⟨l, hl⟩, hrs⟩ := List.forall_mem_cons.1 h
    have hwrite := writeOutput_eq_ok_iff_isWritable.2 ⟨l, hl, rfl⟩
    have hwritten := writeOutput_eq_ok_iff.1 hwrite
    obtain ⟨final, hfinal⟩ := ih fun r' hr' => by
      obtain ⟨l', hl'⟩ := hrs r' hr'
      exact ⟨l', (isWritable_sameWays (sameWays_write hwritten) (faults_write hwritten)).2 hl'⟩
    exact ⟨final, foldlM_writeOutput_cons_eq_ok_iff.2 ⟨_, hwrite, hfinal⟩⟩

theorem isWritable_of_foldlM : ∀ {t final : FileTree}, rs.foldlM writeOutput t = .ok final →
    ∀ r ∈ rs, ∃ l, IsWritable t r l := by
  induction rs with
  | nil => exact fun _ _ h => absurd h List.not_mem_nil
  | cons r rs ih =>
    intro t final h
    obtain ⟨mid, hwrite, hrest⟩ := foldlM_writeOutput_cons_eq_ok_iff.1 h
    have hwritten := writeOutput_eq_ok_iff.1 hwrite
    obtain ⟨l, hl, -⟩ := writeOutput_eq_ok_iff_isWritable.1 hwrite
    refine List.forall_mem_cons.2 ⟨⟨l, hl⟩, fun r' hr' => ?_⟩
    obtain ⟨l', hl'⟩ := ih hrest r' hr'
    exact ⟨l', (isWritable_sameWays (sameWays_write hwritten) (faults_write hwritten)).1 hl'⟩

/-- What a write to a file that is there leaves alone: the locations, in their order, and whatever
is listed for the root directory. -/
theorem entries_writeOutput {r : Rendered} {l : Location} {mid : FileTree}
    (hl : t.destination r.output = .ok l) (hnode : (t.node? l).isSome)
    (h : t.writeOutput r = .ok mid) :
    mid.entries.map (·.1) = t.entries.map (·.1) ∧
      mid.entries.lookup [] = t.entries.lookup [] := by
  obtain ⟨l', ⟨hl', -⟩, rfl⟩ := writeOutput_eq_ok_iff_isWritable.1 h
  obtain rfl := Except.ok.inj (hl.symm.trans (openFile_eq_ok_iff.1 hl').1)
  have hopen := isOpen_of_destination hl
  obtain ⟨n, hn⟩ := Option.isSome_iff_exists.1 hnode
  have hentries : (t.set l (.file (Utf8.encode r.content))).entries =
      place l (.file (Utf8.encode r.content)) t.entries := by
    rw [set, dif_pos hopen.named]
  rw [hentries]
  refine ⟨keys_place (List.mem_map_of_mem (mem_of_node? hopen.ne_nil hn)), ?_⟩
  rw [lookup_place, if_neg hopen.ne_nil.symm]

theorem entries_foldlM_writeOutput : ∀ {t final : FileTree}, rs.foldlM writeOutput t = .ok final →
    (∀ r ∈ rs, ∃ l, t.destination r.output = .ok l ∧ (t.node? l).isSome) →
    final.entries.map (·.1) = t.entries.map (·.1) ∧
      final.entries.lookup [] = t.entries.lookup [] := by
  induction rs with
  | nil =>
    intro t final h _
    cases h
    exact ⟨rfl, rfl⟩
  | cons r rs ih =>
    intro t final h hnodes
    obtain ⟨mid, hwrite, hrest⟩ := foldlM_writeOutput_cons_eq_ok_iff.1 h
    obtain ⟨⟨l, hl, hnode⟩, hnodes⟩ := List.forall_mem_cons.1 hnodes
    obtain ⟨hkeys, hroot⟩ := entries_writeOutput hl hnode hwrite
    have hwritten := writeOutput_eq_ok_iff.1 hwrite
    obtain ⟨hkeys', hroot'⟩ := ih hrest fun r' hr' => by
      obtain ⟨l', hl', hnode'⟩ := hnodes r' hr'
      refine ⟨l', (destination_sameWays (sameWays_write hwritten)).2 hl', ?_⟩
      rw [node?_write hl hwritten]
      split
      · rfl
      · exact hnode'
    exact ⟨hkeys'.trans hkeys, hroot'.trans hroot⟩

theorem isSome_lastWriter? {r : Rendered} {l : Location} (hr : r ∈ rs)
    (hl : t.destination r.output = .ok l) : (t.lastWriter? l rs).isSome := by
  induction rs with
  | nil => exact absurd hr List.not_mem_nil
  | cons first rs ih =>
    rw [lastWriter?, Option.isSome_or, Bool.or_eq_true]
    rcases List.mem_cons.1 hr with rfl | hr
    · right
      rw [if_pos hl]
      rfl
    · exact Or.inl (ih hr)

/-- **Writing outputs once more changes nothing.** -/
theorem foldlM_writeOutput_again (h : rs.foldlM writeOutput t = .ok final) :
    rs.foldlM writeOutput final = .ok final := by
  have hwritten := isWritten_of_foldlM h
  obtain ⟨hways, hnode⟩ := node?_foldlM_writeOutput h
  have htargets : ∀ r ∈ rs, ∃ l, final.destination r.output = .ok l ∧ (final.node? l).isSome := by
    intro r hr
    obtain ⟨l, hl, -⟩ := hwritten.target r hr
    obtain ⟨last, hlast⟩ := Option.isSome_iff_exists.1 (isSome_lastWriter? hr hl)
    refine ⟨l, (destination_sameWays hways).2 hl, ?_⟩
    rw [hnode, hlast]
    rfl
  have hfaults := faults_foldlM_writeOutput h
  obtain ⟨again, hagain⟩ := exists_foldlM_writeOutput fun r hr => by
    obtain ⟨l, hl⟩ := isWritable_of_foldlM h r hr
    exact ⟨l, (isWritable_sameWays hways hfaults).2 hl⟩
  obtain ⟨hways', hnode'⟩ := node?_foldlM_writeOutput hagain
  obtain ⟨hkeys, hroot⟩ := entries_foldlM_writeOutput hagain htargets
  have hentries : again.entries = final.entries := by
    apply eq_of_lookup_eq final.distinct hkeys
    intro l
    by_cases hl : l = []
    · rw [hl, hroot]
    · -- The last output that goes to a location is the same in both passes.
      have hsame : again.node? l = final.node? l := by
        rw [hnode', hnode, lastWriter?_sameWays hways]
        cases t.lastWriter? l rs <;> rfl
      rw [node?, node?, if_neg hl, if_neg hl] at hsame
      exact hsame
  rw [hagain, eq_of_entries_eq hentries hways'.workingDirectory (faults_foldlM_writeOutput hagain)]

end FileTree

/-! ### Rendering again -/

/-- Outputs that are no templates leave the templates alone. -/
theorem agreeOn_of_isWritten (hlinks : LinkFree t) (h : IsWritten t rs final) {suffix : Text}
    (hother : ∀ r ∈ rs, isTemplate r.output suffix = false) :
    AgreeOn (IsTemplateName suffix) t final where
  workingDirectory := h.sameWays.workingDirectory
  differ l hl := by
    obtain ⟨r, hr, hdestination⟩ : ∃ r ∈ rs, t.destination r.output = .ok l := by
      by_contra hnone
      push Not at hnone
      rcases hl with hnode | ⟨access, hrefusal⟩
      · exact hnode (h.untouched l hnone)
      · exact hrefusal (refusal?_congr (faults_foldlM_writeOutput h.inOrder) access l)
    have hfile : t.IsFileIfAny l := (isOpen_of_destination hdestination).file
    refine ⟨?_, hfile, hfile.of_sameWays h.sameWays⟩
    obtain ⟨directory, name, rfl, hname⟩ := fileName?_of_destination hlinks hdestination
    refine ⟨directory, name, rfl, fun htemplate => ?_⟩
    have hnot := hother r hr
    rw [(Walk.isTemplate_iff hname suffix).2 htemplate] at hnot
    cases hnot

/-- **Running again changes nothing.** If a run in a tree without links succeeds, and no file name
of an output makes it a template, then the same run in the tree that it has left succeeds with the
same report, and leaves the tree as it is. -/
theorem run_again (hlinks : LinkFree t)
    (h : (run t root definitions options).2.result = .ok report)
    (hother : ∀ r ∈ report.rendered, isTemplate r.output options.templateSuffix = false) :
    (run (run t root definitions options).1 root definitions options).1 =
        (run t root definitions options).1 ∧
      (run (run t root definitions options).1 root definitions options).2.result = .ok report := by
  obtain ⟨hrender, hwritten⟩ := isWritten_of_run h
  have hagree := agreeOn_of_isWritten hlinks hwritten hother
  have hrender' : (render (run t root definitions options).1 root definitions options).result =
      .ok report := by
    rw [result_render_agreeOn hlinks hagree, hrender]
  obtain ⟨htree, hresult⟩ := run_of_ok hrender'
  obtain ⟨hsame, hok⟩ := writeAll_of_foldlM (foldlM_writeOutput_again hwritten.inOrder)
  rw [htree, hresult, hok]
  exact ⟨hsame, rfl⟩

/-- Two templates with the same output. -/
def doubled : FileTree where
  entries := [([Utf8.encode "b.env.x.envt".toList], .file (Utf8.encode "3".toList)),
    ([Utf8.encode "b.prod.x.envt".toList], .file (Utf8.encode "4".toList))]
  distinct := by decide
  named := by decide

def doubledReport : Report where
  rendered := [⟨.ofText "./b.env.x.envt".toList, .ofText "./b.prod.x".toList, "3".toList, 0⟩,
    ⟨.ofText "./b.prod.x.envt".toList, .ofText "./b.prod.x".toList, "4".toList, 0⟩]
  counts := []
  warnings := []

/-- The first run creates the output and overwrites it, the second one overwrites it twice. -/
theorem run_again_doubled :
    (run doubled ⟨Path.dot⟩ prodDefinitions {}).1 ≠ doubled ∧
    (run (run doubled ⟨Path.dot⟩ prodDefinitions {}).1 ⟨Path.dot⟩ prodDefinitions {}).1 =
      (run doubled ⟨Path.dot⟩ prodDefinitions {}).1 ∧
    (run (run doubled ⟨Path.dot⟩ prodDefinitions {}).1 ⟨Path.dot⟩ prodDefinitions {}).2.result =
      .ok doubledReport := by
  have hlinks : LinkFree doubled := by
    apply linkFree_of_entries
    simp [doubled]
  have hresult : (run doubled ⟨Path.dot⟩ prodDefinitions {}).2.result = .ok doubledReport := by
    cbv
  have hother : ∀ r ∈ doubledReport.rendered,
      isTemplate r.output defaultTemplateSuffix = false := by
    decide
  have hread : (run doubled ⟨Path.dot⟩ prodDefinitions {}).1.read (.ofText "./b.prod.x".toList) =
      .ok (Utf8.encode "4".toList) := by
    cbv
  have hnone : doubled.read (.ofText "./b.prod.x".toList) = .error .notFound := by
    cbv
  refine ⟨fun heq => ?_, run_again hlinks hresult hother⟩
  rw [heq, hnone] at hread
  cases hread

end EnvTemplates
