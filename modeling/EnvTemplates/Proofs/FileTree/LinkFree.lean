import EnvTemplates.Proofs.FileTree.Entries
import EnvTemplates.Proofs.FileTree.Writing

/-!
# Trees without links

Without links, a path stands for the place that its names say. What is found below a directory
stands below the location of the directory under the same names (`location_joinAll`), and a write
to a name in the parent of an entry goes to a sibling of the entry (`destination_sibling`). So two
paths below a root lead to the same place if and only if they have the same components
(`IsBelow.eq_iff`).
-/

namespace EnvTemplates

namespace Path

variable {p : Path} {part : Bytes}

/-- A part that is joined to a path is the last part of it. -/
theorem segments_join (h : slash ∉ part) :
    ∃ parts, (p.join ⟨part⟩).segments = parts ++ [part] := by
  unfold segments
  rcases bytes_join h (p := p) with ⟨-, hjoin⟩ | ⟨x, -, hjoin⟩ | ⟨-, hjoin⟩
  · rw [hjoin]
    exact ⟨[], fields_eq_of_slash_notMem h⟩
  · rw [hjoin, fields_append_slash, fields_eq_of_slash_notMem h]
    exact ⟨_, rfl⟩
  · rw [hjoin, fields_append_slash, fields_eq_of_slash_notMem h]
    exact ⟨_, rfl⟩

end Path

namespace FileTree

variable {t t' : FileTree} {p q root : Path} {base directory l l' : Location} {part : Bytes}
  {names : List Name}

/-- No link stands anywhere. -/
def LinkFree (t : FileTree) : Prop := ∀ l target, t.node? l ≠ some (.link target)

theorem linkFree_of_entries (h : ∀ e ∈ t.entries, ∀ target, e.2 ≠ .link target) : LinkFree t := by
  intro l target hnode
  by_cases hl : l = []
  · rw [hl] at hnode
    cases hnode
  · exact h _ (mem_of_node? hl hnode) target rfl

/-! ### Where joined names lead -/

/-- What names lead to from a directory stands below it, under these names. -/
theorem location_joinAll (hlinks : LinkFree t) (hroot : t.directoryAt? root = some base)
    (hnames : ∀ front name more, names = front ++ name :: more → Path.IsName name ∧
      ∃ directory, t.directoryAt? (root.joinAll front) = some directory) :
    t.locate (root.joinAll names) = .ok l → l = base ++ names := by
  induction names using List.reverseRecOn generalizing l with
  | nil =>
    intro hlocate
    have hbase : t.locate root = .ok l := hlocate
    rw [(directoryAt?_eq_some_iff.1 hroot).1, Except.ok.injEq] at hbase
    rw [← hbase, List.append_nil]
  | append_singleton front name ih =>
    intro hlocate
    obtain ⟨hname, directory, hdirectory⟩ := hnames front name [] rfl
    obtain ⟨hfront, hnode⟩ := directoryAt?_eq_some_iff.1 hdirectory
    have hbefore : directory = base ++ front := by
      apply ih _ hfront
      intro front' name' more' hsplit
      refine hnames front' name' (more' ++ [name]) ?_
      rw [hsplit, List.append_assoc, List.cons_append]
    rw [Path.joinAll_append] at hlocate
    rw [eq_of_locate_join_name hname hfront (hlinks _) hlocate, hbefore, List.append_assoc]

/-! ### Where the siblings of an entry are -/

/-- A write to a part that is joined to a path goes to a name in the directory that comes before
the part. -/
theorem land_of_destination_join (hslash : Path.slash ∉ part)
    (h : t.destination (q.join ⟨part⟩) = .ok l) :
    ∃ parts arrival follow, (q.join ⟨part⟩).segments = parts ++ [part] ∧ part ≠ [] ∧
      Resolves t maxLinks (start t.workingDirectory (q.join ⟨part⟩)) (parts ++ [[]]) arrival ∧
      t.landAt follow part arrival = .ok l := by
  obtain ⟨parts, hsegments⟩ := Path.segments_join (p := q) hslash
  have hland := (destination_eq_ok_iff.1 h).2
  unfold maxLinks at hland
  rw [destinationFrom, hsegments] at hland
  obtain ⟨front, name, arrival, hsplit, hne, hresolve, hlast⟩ := land_eq_ok_iff.1 hland
  obtain ⟨rfl, hname⟩ := List.append_inj' hsplit rfl
  obtain rfl := List.singleton_inj.1 hname
  exact ⟨parts, arrival, _, hsegments, hne, resolve_eq_ok_iff.1 hresolve, hlast⟩

/-- A write never goes to a dot. -/
theorem isName_of_destination_join (hslash : Path.slash ∉ part)
    (h : t.destination (q.join ⟨part⟩) = .ok l) : Path.IsName part := by
  obtain ⟨parts, ⟨directory, left⟩, follow, -, hne, -, hlast⟩ := land_of_destination_join hslash h
  obtain ⟨hsearched, -⟩ := (landAt_eq_ok_iff hne).1 hlast
  exact ⟨hsearched.1, hsearched.2.1, hslash⟩

/-- How a path with a joined name is resolved: the parts before the name lead to the directory,
however they were spelled. -/
theorem resolves_sibling (hname : Path.IsName part) (hp : t.directoryAt? p = some directory)
    (hcomponents : q.components = p.components) {parts : List Bytes}
    (hsegments : (q.join ⟨part⟩).segments = parts ++ [part]) :
    ∃ left, Resolves t maxLinks (start t.workingDirectory (q.join ⟨part⟩)) parts
      (directory, left) := by
  obtain ⟨hlocate, hdirectory⟩ := directoryAt?_eq_some_iff.1 hp
  obtain ⟨-, left, hresolve⟩ := locate_eq_ok_iff.1 hlocate
  have hstart : start t.workingDirectory (q.join ⟨part⟩) = start t.workingDirectory p := by
    rw [start_join_name hname, start, start, Path.isAbsolute_eq_of_components_eq hcomponents]
  have hsteps : parts.filterMap Path.component? = p.segments.filterMap Path.component? := by
    have hjoin : (q.join ⟨part⟩).components = (p.join ⟨part⟩).components := by
      rw [Path.components_join_name hname, Path.components_join_name hname, hcomponents]
    have hlast : (q.join ⟨part⟩).steps = p.steps ++ [.name part] := by
      rw [Path.steps_eq_of_components_eq hjoin, Path.steps_eq_filter,
        Path.components_join_name hname, List.filter_append, ← Path.steps_eq_filter]
      rfl
    rw [Path.steps, hsegments, List.filterMap_append] at hlast
    have hpart : [part].filterMap Path.component? = [.name part] := by
      rw [List.filterMap_cons_some hname.component?]
      rfl
    rw [hpart] at hlast
    exact List.append_cancel_right hlast
  refine ⟨left, ?_⟩
  rw [hstart]
  exact (resolve_eq_ok_iff.1 hresolve).respell hdirectory hsteps

/-- **A write to a sibling** goes to the name in the directory. -/
theorem destination_sibling (hlinks : LinkFree t) (hp : t.directoryAt? p = some directory)
    (hcomponents : q.components = p.components) (hslash : Path.slash ∉ part)
    (h : t.destination (q.join ⟨part⟩) = .ok l) : l = directory ++ [part] := by
  have hname := isName_of_destination_join hslash h
  obtain ⟨parts, arrival, follow, hsegments, hne, hresolves, hlast⟩ :=
    land_of_destination_join hslash h
  obtain ⟨left, hparts⟩ := resolves_sibling hname hp hcomponents hsegments
  have hdirectory := (directoryAt?_eq_some_iff.1 hp).2
  have harrival := hresolves.functional (hparts.append (resolves_slash_iff.2 ⟨hdirectory, rfl⟩))
  subst harrival
  obtain ⟨-, ⟨hl, -⟩ | ⟨target, hlink, -⟩⟩ := (landAt_eq_ok_iff hne).1 hlast
  · exact hl
  · exact absurd hlink (hlinks _ target)

/-- What was written to a sibling is read from it. -/
theorem read_sibling (hp : t.directoryAt? p = some directory)
    (hcomponents : q.components = p.components) (hslash : Path.slash ∉ part)
    (h : t.destination (q.join ⟨part⟩) = .ok l) (hways : SameWays t t') {contents : Bytes}
    (hnode : t'.node? (directory ++ [part]) = some (.file contents)) :
    t'.read (q.join ⟨part⟩) = .ok contents := by
  have hname := isName_of_destination_join hslash h
  obtain ⟨parts, ⟨place, links⟩, follow, hsegments, hne, -, hlast⟩ :=
    land_of_destination_join hslash h
  obtain ⟨left, hparts⟩ := resolves_sibling hname hp hcomponents hsegments
  obtain ⟨hsearched, -⟩ := (landAt_eq_ok_iff hne).1 hlast
  have hdirectory : t'.node? directory = some .directory :=
    (hways.directory _).2 (directoryAt?_eq_some_iff.1 hp).2
  have hsome : (t'.node? directory).isSome := by
    rw [hdirectory]
    rfl
  -- The directory is found as before, and the file in it.
  have hfile : Resolves t' left directory [part] (directory ++ [part], left) :=
    .enter hdirectory hsearched hnode nofun .arrive
  have hlocate : t'.locate (q.join ⟨part⟩) = .ok (directory ++ [part]) := by
    refine locate_eq_ok_iff.2 ⟨(destination_eq_ok_iff.1 h).1, left, ?_⟩
    rw [hways.workingDirectory, hsegments]
    exact resolve_eq_ok_iff.2 ((hparts.sameWays hways hsome).append hfile)
  exact read_eq_ok_iff.2 ⟨_, hlocate, hnode⟩

/-- **A write goes to the file name of its path**, in some directory. -/
theorem fileName?_of_destination (hlinks : LinkFree t) (h : t.destination p = .ok l) :
    ∃ directory name, l = directory ++ [name] ∧ p.fileName? = some name := by
  have hland := (destination_eq_ok_iff.1 h).2
  unfold maxLinks at hland
  rw [destinationFrom] at hland
  obtain ⟨front, name, ⟨directory, left⟩, hsegments, hne, -, hlast⟩ := land_eq_ok_iff.1 hland
  obtain ⟨hsearched, ⟨hl, -⟩ | ⟨target, hlink, -⟩⟩ := (landAt_eq_ok_iff hne).1 hlast
  · have hname : Path.component? name = some (.name name) := by
      simp [Path.component?_eq_some_iff, hsearched.1, hsearched.2.1]
    have hsteps : p.steps = front.filterMap Path.component? ++ [.name name] := by
      rw [Path.steps, hsegments, List.filterMap_append, List.filterMap_cons_some hname]
      rfl
    exact ⟨directory, name, hl, Path.fileName?_of_steps hsteps⟩
  · exact absurd hlink (hlinks _ target)

/-! ### Paths below a root -/

/-- A path stands for names below a root, and a location for the same names below another one. -/
def IsBelow (root : Path) (base : Location) (p : Path) (l : Location) : Prop :=
  ∃ names, l = base ++ names ∧ p.components = root.components ++ names.map .name

theorem IsBelow.eq_iff (h : IsBelow root base p l) (h' : IsBelow root base q l') :
    l = l' ↔ p.components = q.components := by
  obtain ⟨names, rfl, hp⟩ := h
  obtain ⟨names', rfl, hq⟩ := h'
  rw [hp, hq, List.append_cancel_left_eq, List.append_cancel_left_eq]
  exact Path.map_name_injective.eq_iff.symm

theorem isBelow_joinAll (hnames : ∀ name ∈ names, Path.IsName name) (base : Location) :
    IsBelow root base (root.joinAll names) (base ++ names) :=
  ⟨names, rfl, Path.components_joinAll hnames root⟩

end FileTree

end EnvTemplates
