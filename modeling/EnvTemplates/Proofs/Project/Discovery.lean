import EnvTemplates.Project
import EnvTemplates.Proofs.FileTree.Nodes
import EnvTemplates.Proofs.Path.Join

/-!
# Which templates a walk finds

A walk that comes to its end has found the files that it should, and no others. What it should find
is said without the walk: `Leads` follows the names that lead from a directory to a template, entry
by entry. The order is the order of paths, which comes about from the order of the names in each
directory, since whatever is found below an entry starts with the components of that entry.
-/

namespace EnvTemplates

/-- A path leads to a directory that has an entry with the given name. -/
def FileTree.IsEntry (t : FileTree) (path : Path) (name : Name) : Prop :=
  ∃ directory, t.directoryAt? path = some directory ∧ name ∈ t.names directory

theorem FileTree.IsEntry.isName {t : FileTree} {path : Path} {name : Name}
    (h : t.IsEntry path name) : Path.IsName name := by
  obtain ⟨directory, -, hname⟩ := h
  exact isName_of_mem_names hname

namespace Walk

variable {s : Setting} {path : Path} {name : Name} {names rest : List Name}

/-- The names lead from an entry of a directory to a template, and nothing on the way is passed
over, neither the entry itself nor the template. -/
def Admits (s : Setting) : Path → List Name → Prop
  | path, [] =>
    s.excluded path false = false ∧ s.tree.isFile path = true ∧ isTemplate path s.suffix = true
  | path, name :: rest =>
    s.excluded path true = false ∧ s.tree.IsEntry path name ∧ Admits s (path.join ⟨name⟩) rest

/-- The names lead from a directory to a template below it. -/
def Leads (s : Setting) (path : Path) : List Name → Prop
  | [] => False
  | name :: rest => s.tree.IsEntry path name ∧ Admits s (path.join ⟨name⟩) rest

theorem admits_cons_iff :
    Admits s path (name :: rest) ↔ s.excluded path true = false ∧ Leads s path (name :: rest) :=
  Iff.rfl

theorem Admits.isName : ∀ {names : List Name} {path : Path}, Admits s path names →
    ∀ name ∈ names, Path.IsName name
  | [], _, _ => fun _ h => absurd h List.not_mem_nil
  | _ :: _, _, h => List.forall_mem_cons.2 ⟨h.2.1.isName, Admits.isName h.2.2⟩

/-- What was found below a path: all that the given names lead to, in the order of paths. -/
structure Collects (path : Path) (leads : List Name → Prop) (found : List Path) : Prop where
  mem_iff : ∀ q, q ∈ found ↔ ∃ names, leads names ∧ q = path.joinAll names
  sorted : found.Pairwise Path.Before

/-- A part of a walk leaves the directories that it is inside of, and adds what it found. -/
def Adds (state after : State) (path : Path) (leads : List Name → Prop) : Prop :=
  after.ancestors = state.ancestors ∧
    ∃ found, after.found = state.found ++ found ∧ Collects path leads found

theorem collects_nil {leads : List Name → Prop} (h : ∀ names, ¬ leads names) :
    Collects path leads [] := by
  refine ⟨fun q => ?_, List.Pairwise.nil⟩
  simp only [List.not_mem_nil, false_iff, not_exists, not_and]
  intro names hleads
  exact absurd hleads (h names)

theorem Adds.of_none {state : State} {leads : List Name → Prop} (h : ∀ names, ¬ leads names) :
    Adds state state path leads :=
  ⟨rfl, [], (List.append_nil _).symm, collects_nil h⟩

theorem Adds.congr {state after : State} {leads leads' : List Name → Prop}
    (h : Adds state after path leads) (heq : ∀ names, leads names ↔ leads' names) :
    Adds state after path leads' := by
  rw [show leads' = leads from funext fun names => (propext (heq names)).symm]
  exact h

/-- Leaving the directory that it has entered last, a walk is inside of the others. -/
theorem ancestors_leave {inner : State} {inside : List Identity} {directory : Identity}
    (h : inner.ancestors = directory :: inside) : (inner.leave directory).ancestors = inside := by
  show inner.ancestors.erase directory = inside
  rw [h]
  exact List.erase_cons_head directory inside

/-! ### One entry -/

theorem isFile_of_isDirectory {t : FileTree} (h : t.isDirectory path = true) :
    t.isFile path = false := by
  rw [FileTree.isDirectory, FileTree.directoryAt?] at h
  rw [FileTree.isFile, FileTree.nodeAt?]
  cases hlocate : t.locate path with
  | error e => rfl
  | ok l =>
    simp only [hlocate] at h
    split at h
    · next hdirectory => simp only [hdirectory]
    · cases h

theorem isDirectory_of_isEntry {t : FileTree} (h : t.IsEntry path name) :
    t.isDirectory path = true := by
  obtain ⟨directory, hdirectory, -⟩ := h
  rw [FileTree.isDirectory, hdirectory]
  rfl

/-- An entry that is no directory admits at most itself. -/
theorem admits_iff_of_not_directory (h : s.tree.isDirectory path = false) :
    Admits s path names ↔ names = [] ∧ s.excluded path false = false ∧
      s.tree.isFile path = true ∧ isTemplate path s.suffix = true := by
  cases names with
  | nil => rw [Admits, eq_self, true_and]
  | cons name rest =>
    simp only [List.cons_ne_nil, false_and, iff_false]
    rintro ⟨-, hentry, -⟩
    rw [isDirectory_of_isEntry hentry] at h
    cases h

/-- A directory admits what is below it, unless it is passed over. -/
theorem admits_iff_of_directory (h : s.tree.isDirectory path = true) :
    Admits s path names ↔ s.excluded path true = false ∧ Leads s path names := by
  cases names with
  | nil =>
    simp only [Admits, Leads, isFile_of_isDirectory h, Bool.false_eq_true, false_and, and_false]
  | cons name rest => exact admits_cons_iff

/-- What is passed over admits nothing, whatever may be below it. -/
theorem not_admits_of_excluded (h : s.excluded path (s.tree.isDirectory path) = true)
    (names : List Name) : ¬ Admits s path names := by
  intro hadmits
  cases hdirectory : s.tree.isDirectory path with
  | true =>
    obtain ⟨hkept, -⟩ := (admits_iff_of_directory hdirectory).1 hadmits
    rw [hdirectory, hkept] at h
    cases h
  | false =>
    obtain ⟨-, hkept, -⟩ := (admits_iff_of_not_directory hdirectory).1 hadmits
    rw [hdirectory, hkept] at h
    cases h

/-- The step lemma: what is found at an entry, given that `visit` walks through directories. -/
theorem entry_adds {visit : State → Path → Run State}
    (hvisit : ∀ {state p after}, (visit state p).result = .ok after →
      Adds state after p (Leads s p)) {state after : State}
    (h : (entry s visit state path).result = .ok after) :
    Adds state after path (Admits s path) := by
  rw [entry] at h
  by_cases hexcluded : s.excluded path (s.tree.isDirectory path) = true
  · simp only [hexcluded, if_true, Run.result_bind_eq_ok, Run.result_pure] at h
    obtain ⟨-, -, heq⟩ := h
    cases heq
    exact Adds.of_none (not_admits_of_excluded hexcluded)
  · rw [if_neg hexcluded] at h
    have hkept := Bool.eq_false_iff.2 hexcluded
    cases hdirectory : s.tree.isDirectory path with
    | true =>
      rw [hdirectory] at h hkept
      refine (hvisit h).congr fun names => ?_
      rw [admits_iff_of_directory hdirectory]
      exact (and_iff_right hkept).symm
    | false =>
      rw [hdirectory] at h hkept
      rw [if_neg Bool.false_ne_true] at h
      by_cases htemplate : (s.tree.isFile path && isTemplate path s.suffix) = true
      · simp only [htemplate, if_true, Run.result_bind_eq_ok, Run.result_pure] at h
        obtain ⟨-, -, heq⟩ := h
        cases heq
        refine ⟨rfl, [path], rfl, fun q => ?_, List.pairwise_singleton _ _⟩
        rw [Bool.and_eq_true] at htemplate
        simp only [admits_iff_of_not_directory hdirectory, hkept, htemplate, and_self, and_true,
          exists_eq_left, List.mem_singleton]
        rfl
      · rw [if_neg htemplate] at h
        cases h
        apply Adds.of_none
        intro names hadmits
        apply htemplate
        rw [Bool.and_eq_true]
        exact ((admits_iff_of_not_directory hdirectory).1 hadmits).2.2

/-! ### Whole directories -/

/-- The entries of a directory are those that its names are joined to, if it can be listed. -/
theorem entries_eq_ok_iff {directory : Location} {paths : List Path} :
    (entries s path directory).result = .ok paths ↔ s.tree.refusal? .list directory = none ∧
      paths = (s.tree.names directory).map fun name => path.join ⟨name⟩ := by
  rw [entries]
  simp only [Run.result_bind_eq_ok, Run.result_ofExcept, Run.result_pure, Except.ok.injEq]
  constructor
  · rintro ⟨names, hnames, rfl⟩
    cases hlist : s.tree.list directory with
    | error cause =>
      rw [hlist] at hnames
      cases hnames
    | ok listed =>
      rw [hlist] at hnames
      cases hnames
      obtain ⟨hrefusal, rfl⟩ := FileTree.list_eq_ok_iff.1 hlist
      exact ⟨hrefusal, rfl⟩
  · rintro ⟨hrefusal, rfl⟩
    exact ⟨_, by rw [FileTree.list_eq_ok_iff.2 ⟨hrefusal, rfl⟩]; rfl, rfl⟩

theorem entries_eq_error_iff {directory : Location} {e : Error} :
    (entries s path directory).result = .error e ↔
      ∃ cause, s.tree.refusal? .list directory = some cause ∧ e = .io cause := by
  rw [entries]
  simp only [Run.result_bind_eq_error, Run.result_ofExcept, Run.result_pure, reduceCtorEq,
    and_false, exists_false, or_false]
  cases hlist : s.tree.list directory with
  | error cause =>
    rw [FileTree.list_eq_error_iff.1 hlist]
    simp [Except.mapError, eq_comm]
  | ok names =>
    rw [(FileTree.list_eq_ok_iff.1 hlist).1]
    simp [Except.mapError]

/-- The names of a list lead on to what each entry admits. -/
def LeadsBy (s : Setting) (path : Path) (entries : List Name) (names : List Name) : Prop :=
  ∃ name ∈ entries, ∃ rest, names = name :: rest ∧ Admits s (path.join ⟨name⟩) rest

/-- The run lemma for one directory: what is found at the entries one after the other. Whatever is
found at an earlier entry comes before what is found at a later one, because the names do. -/
theorem entries_adds {visit : State → Path → Run State}
    (hvisit : ∀ {state p after}, (visit state p).result = .ok after →
      Adds state after p (Leads s p)) {entries : List Name}
    (hnames : ∀ name ∈ entries, Path.IsName name) (hsorted : entries.Pairwise (· < ·)) :
    ∀ {state after : State},
      ((entries.map fun name => path.join ⟨name⟩).foldlM (entry s visit) state).result = .ok after →
      Adds state after path (LeadsBy s path entries) := by
  induction entries with
  | nil =>
    intro state after h
    cases h
    exact Adds.of_none fun names ⟨name, hname, _⟩ => absurd hname List.not_mem_nil
  | cons name entries ih =>
    intro state after h
    obtain ⟨hname, hrest⟩ := List.forall_mem_cons.1 hnames
    obtain ⟨hlt, hsorted⟩ := List.pairwise_cons.1 hsorted
    rw [List.map_cons, List.foldlM_cons, Run.result_bind_eq_ok] at h
    obtain ⟨next, hnext, hmore⟩ := h
    obtain ⟨hinside, first, hfirst, hmemFirst, hfirstSorted⟩ := entry_adds hvisit hnext
    obtain ⟨hinside', more, hfound, hmemMore, hmoreSorted⟩ := ih hrest hsorted hmore
    refine ⟨hinside'.trans hinside, first ++ more, ?_, fun q => ?_, ?_⟩
    · rw [hfound, hfirst, List.append_assoc]
    · rw [List.mem_append, hmemFirst, hmemMore]
      constructor
      · -- found at the first entry, or at one of the others
        rintro (⟨rest, hadmits, rfl⟩ | ⟨names, ⟨n, hn, rest, rfl, hadmits⟩, rfl⟩)
        · exact ⟨name :: rest, ⟨name, List.mem_cons_self, rest, rfl, hadmits⟩, rfl⟩
        · exact ⟨n :: rest, ⟨n, List.mem_cons_of_mem _ hn, rest, rfl, hadmits⟩, rfl⟩
      · rintro ⟨names, ⟨n, hn, rest, rfl, hadmits⟩, rfl⟩
        rcases List.mem_cons.1 hn with rfl | hn
        · exact Or.inl ⟨rest, hadmits, rfl⟩
        · exact Or.inr ⟨n :: rest, ⟨n, hn, rest, rfl, hadmits⟩, rfl⟩
    · refine List.pairwise_append.2 ⟨hfirstSorted, hmoreSorted, fun a ha b hb => ?_⟩
      obtain ⟨rest, hadmits, rfl⟩ := (hmemFirst a).1 ha
      obtain ⟨names, ⟨n, hn, rest', rfl, hadmits'⟩, rfl⟩ := (hmemMore b).1 hb
      exact Path.joinAll_before (hlt n hn) (List.forall_mem_cons.2 ⟨hname, hadmits.isName⟩)
        (List.forall_mem_cons.2 ⟨hrest n hn, hadmits'.isName⟩) path

theorem not_leads_of_none (h : s.tree.directoryAt? path = none) (names : List Name) :
    ¬ Leads s path names := by
  cases names with
  | nil => exact id
  | cons name rest =>
    rintro ⟨⟨directory, hdirectory, -⟩, -⟩
    rw [h] at hdirectory
    cases hdirectory

theorem leads_iff_leadsBy {directory : Location} (h : s.tree.directoryAt? path = some directory)
    (names : List Name) : LeadsBy s path (s.tree.names directory) names ↔ Leads s path names := by
  constructor
  · rintro ⟨name, hname, rest, rfl, hadmits⟩
    exact ⟨⟨directory, h, hname⟩, hadmits⟩
  · intro hleads
    cases names with
    | nil => exact absurd hleads id
    | cons name rest =>
      obtain ⟨⟨other, hother, hname⟩, hadmits⟩ := hleads
      rw [h, Option.some.injEq] at hother
      rw [← hother] at hname
      exact ⟨name, hname, rest, rfl, hadmits⟩

/-- The step lemma of the walk: what is found in a directory, given that `visit` walks through
those in it. -/
theorem step_adds {visit : State → Path → Run State}
    (hvisit : ∀ {state p after}, (visit state p).result = .ok after →
      Adds state after p (Leads s p))
    (h : (step s visit state path).result = .ok after) : Adds state after path (Leads s path) := by
  rw [step] at h
  split at h
  · next hnone =>
    cases h
    exact Adds.of_none (not_leads_of_none hnone)
  · next directory hdirectory =>
    split at h
    · cases h
    · obtain ⟨paths, hpaths, hrest⟩ := Run.result_bind_eq_ok.1 h
      obtain ⟨inner, hinner, hafter⟩ := Run.result_bind_eq_ok.1 hrest
      cases hafter
      obtain ⟨-, rfl⟩ := entries_eq_ok_iff.1 hpaths
      have hadds := entries_adds hvisit (fun name hname => FileTree.isName_of_mem_names hname)
        (FileTree.pairwise_names s.tree directory) hinner
      -- The entries lead by their names to what the directory leads to.
      obtain ⟨hancestors, found, hfound, hcollects⟩ := hadds.congr (leads_iff_leadsBy hdirectory)
      exact ⟨ancestors_leave hancestors, found, hfound, hcollects⟩

/-- What a walk through a directory and those below it finds. The induction is on the bound on
directories inside of each other. -/
theorem visit_adds (depth : Nat) : ∀ {state after : State} {path : Path},
    (visit s depth state path).result = .ok after → Adds state after path (Leads s path) := by
  induction depth with
  | zero =>
    intro state after path h
    cases h
  | succ depth ih =>
    intro state after path h
    exact step_adds ih h

/-! ### The whole walk -/

/-- The names lead from the root to a template that the walk should find: each of them is an entry
of the directory before it, no directory on the way is passed over, and at the end stands a regular
file that is not passed over and whose name ends with the suffix. -/
structure IsSelected (s : Setting) (root : Path) (names : List Name) : Prop where
  ne_nil : names ≠ []
  entries : ∀ front name more, names = front ++ name :: more →
    s.tree.IsEntry (root.joinAll front) name
  directories : ∀ front more, front ≠ [] → more ≠ [] → names = front ++ more →
    s.tree.isDirectory (root.joinAll front) = true ∧ s.excluded (root.joinAll front) true = false
  file : s.tree.isFile (root.joinAll names) = true
  kept : s.excluded (root.joinAll names) false = false
  suffix : ∃ front last text, names = front ++ [last] ∧ Utf8.decode? last = some text ∧
    s.suffix <:+ text

/-- What an entry admits, told of all names at once. -/
theorem admits_iff : Admits s path names ↔
    (∀ front name more, names = front ++ name :: more →
      s.excluded (path.joinAll front) true = false ∧ s.tree.IsEntry (path.joinAll front) name) ∧
    s.excluded (path.joinAll names) false = false ∧ s.tree.isFile (path.joinAll names) = true ∧
    isTemplate (path.joinAll names) s.suffix = true := by
  induction names generalizing path with
  | nil =>
    constructor
    · intro h
      refine ⟨?_, h⟩
      intro front name more heq
      exact absurd heq.symm (by simp)
    · intro h
      exact h.2
  | cons name rest ih =>
    rw [Admits, ih]
    constructor
    · rintro ⟨hkept, hentry, hinner, hlast⟩
      refine ⟨fun front n more heq => ?_, hlast⟩
      cases front with
      | nil =>
        obtain ⟨rfl, -⟩ := List.cons.inj heq
        exact ⟨hkept, hentry⟩
      | cons first front =>
        obtain ⟨rfl, hrest⟩ := List.cons.inj heq
        exact hinner front n more hrest
    · rintro ⟨hall, hlast⟩
      obtain ⟨hkept, hentry⟩ := hall [] name rest rfl
      refine ⟨hkept, hentry, fun front n more heq => ?_, hlast⟩
      exact hall (name :: front) n more (congrArg (name :: ·) heq)

theorem isTemplate_iff {path : Path} {last : Name} (h : path.fileName? = some last)
    (suffix : Text) :
    isTemplate path suffix = true ↔ ∃ text, Utf8.decode? last = some text ∧ suffix <:+ text := by
  rw [isTemplate, Path.fileNameText?, h, Option.bind_some]
  cases Utf8.decode? last with
  | none => simp
  | some text => simp [isSome_dropEnd?_iff]

theorem isTemplate_join_name_iff {last : Name} (h : Path.IsName last) (p : Path) (suffix : Text) :
    isTemplate (p.join ⟨last⟩) suffix = true ↔
      ∃ text, Utf8.decode? last = some text ∧ suffix <:+ text :=
  isTemplate_iff (Path.fileName?_join_name h) suffix

theorem entries_of_leads {root : Path} (h : Leads s root names) :
    ∀ front name more, names = front ++ name :: more →
      s.tree.IsEntry (root.joinAll front) name := by
  intro front name more heq
  cases names with
  | nil => exact absurd h id
  | cons first rest =>
    obtain ⟨hentry, hadmits⟩ := h
    cases front with
    | nil =>
      obtain ⟨rfl, -⟩ := List.cons.inj heq
      exact hentry
    | cons second front =>
      obtain ⟨rfl, hrest⟩ := List.cons.inj heq
      exact ((admits_iff.1 hadmits).1 front name more hrest).2

theorem isSelected_of_leads {root : Path} (h : Leads s root names) : IsSelected s root names := by
  have hentries := entries_of_leads h
  cases names with
  | nil => exact absurd h id
  | cons name rest =>
    obtain ⟨hinner, hkept, hfile, htemplate⟩ := admits_iff.1 h.2
    refine ⟨List.cons_ne_nil _ _, hentries, ?_, hfile, hkept, ?_⟩
    · intro front more hfront hmore heq
      obtain ⟨n, more, rfl⟩ := List.exists_cons_of_ne_nil hmore
      refine ⟨isDirectory_of_isEntry (hentries front n more heq), ?_⟩
      obtain ⟨first, front, rfl⟩ := List.exists_cons_of_ne_nil hfront
      obtain ⟨rfl, hrest⟩ := List.cons.inj heq
      exact (hinner front n more hrest).1
    · obtain ⟨front, last, hlast⟩ : ∃ front last, name :: rest = front ++ [last] :=
        ⟨_, _, (List.dropLast_append_getLast (List.cons_ne_nil name rest)).symm⟩
      have hname : Path.IsName last := (hentries front last [] hlast).isName
      rw [← Path.joinAll_cons, hlast, Path.joinAll_append] at htemplate
      obtain ⟨text, htext, hsuffix⟩ := (isTemplate_join_name_iff hname _ _).1 htemplate
      exact ⟨front, last, text, hlast, htext, hsuffix⟩

theorem leads_of_isSelected {root : Path} (h : IsSelected s root names) : Leads s root names := by
  obtain ⟨name, rest, rfl⟩ := List.exists_cons_of_ne_nil h.ne_nil
  refine ⟨h.entries [] name rest rfl, admits_iff.2 ⟨?_, h.kept, h.file, ?_⟩⟩
  · intro front n more heq
    have hsplit : name :: rest = (name :: front) ++ n :: more := congrArg (name :: ·) heq
    exact ⟨(h.directories _ _ (List.cons_ne_nil _ _) (List.cons_ne_nil _ _) hsplit).2,
      h.entries _ _ _ hsplit⟩
  · obtain ⟨front, last, text, hlast, htext, hsuffix⟩ := h.suffix
    have hname : Path.IsName last := (h.entries front last [] hlast).isName
    rw [← Path.joinAll_cons, hlast, Path.joinAll_append]
    exact (isTemplate_join_name_iff hname _ _).2 ⟨text, htext, hsuffix⟩

/-- The names that a walk follows are those that it should. -/
theorem leads_iff_isSelected {root : Path} : Leads s root names ↔ IsSelected s root names :=
  ⟨isSelected_of_leads, leads_of_isSelected⟩

theorem IsSelected.isName {root : Path} (h : IsSelected s root names) :
    ∀ name ∈ names, Path.IsName name := by
  intro name hname
  obtain ⟨front, more, heq⟩ := List.append_of_mem hname
  exact (h.entries front name more heq).isName

/-- What a walk should find below a root: all templates that names lead to, in the order of paths,
and hence each of them once. -/
structure IsExact (s : Setting) (root : Path) (found : List Path) : Prop where
  mem_iff : ∀ path, path ∈ found ↔ ∃ names, IsSelected s root names ∧ path = root.joinAll names
  sorted : found.Pairwise Path.Before
  nodup : found.Nodup
  /-- Nothing is found below a directory that is passed over, whatever the rules say about it. -/
  pruned : ∀ front more, front ≠ [] → more ≠ [] → (∀ name ∈ front ++ more, Path.IsName name) →
    s.excluded (root.joinAll front) true = true → root.joinAll (front ++ more) ∉ found

theorem isExact_of_templates {root : Path} {found : List Path}
    (h : (templates s root).result = .ok found) : IsExact s root found := by
  obtain ⟨after, hvisit, hfound⟩ := Run.result_bind_eq_ok.1 h
  cases hfound
  obtain ⟨-, new, hnew, hmem, hsorted⟩ := visit_adds _ hvisit
  rw [List.nil_append] at hnew
  rw [hnew]
  simp only [leads_iff_isSelected] at hmem
  refine ⟨hmem, hsorted, ?_, ?_⟩
  · refine hsorted.imp fun {a b} hbefore => ?_
    rintro rfl
    exact Path.not_before_self a hbefore
  · intro front more hfront hmore hnames hexcluded hpath
    -- A path spells out its names, so the directory is on the way to it in the walk, too.
    obtain ⟨names, hselected, heq⟩ := (hmem _).1 hpath
    have hsame := Path.joinAll_inj hnames hselected.isName heq
    obtain ⟨-, hkept⟩ := hselected.directories front more hfront hmore hsame.symm
    rw [hexcluded] at hkept
    cases hkept

/-- Of two walks, the one that should find no more than the other finds a part of it, in the same
order. -/
theorem IsExact.sublist {s' : Setting} {root : Path} {found found' : List Path}
    (h : IsExact s root found) (h' : IsExact s' root found')
    (hselected : ∀ names, IsSelected s' root names → IsSelected s root names) :
    found'.Sublist found := by
  have : Std.Antisymm Path.Before :=
    ⟨fun p q hpq hqp => absurd hqp (Path.not_before_of_before hpq)⟩
  have hsubset : found' ⊆ found := by
    intro path hpath
    obtain ⟨names, hnames, rfl⟩ := (h'.mem_iff path).1 hpath
    exact (h.mem_iff _).2 ⟨names, hselected names hnames, rfl⟩
  exact List.sublist_of_subperm_of_pairwise (List.subperm_of_subset h'.nodup hsubset)
    h'.sorted h.sorted

end Walk

/-- **A walk that comes to its end has found exactly the templates that it should**, in the order of
paths, whatever decides about what is passed over; so has the search for the templates of a project,
where the exclude rules decide. -/
theorem collect_exact :
    (∀ (s : Walk.Setting) (root : Path) (found : List Path),
      (Walk.templates s root).result = .ok found → Walk.IsExact s root found) ∧
    ∀ (t : FileTree) (root : Path) (options : Options) (found : List Path),
      (collect t root options).result = .ok found →
      ∃ rules, ExcludeRule.parseAll options.exclude = .ok rules ∧
        Walk.IsExact ⟨t, options.templateSuffix, excludedBy rules root⟩ root found := by
  constructor
  · intro s root found
    exact Walk.isExact_of_templates
  · intro t root options found h
    obtain ⟨rules, hrules, hfound⟩ := Run.result_bind_eq_ok.1 h
    refine ⟨rules, ?_, Walk.isExact_of_templates hfound⟩
    rw [Run.result_ofExcept] at hrules
    cases hparse : ExcludeRule.parseAll options.exclude with
    | error problem =>
      rw [hparse] at hrules
      cases hrules
    | ok parsed =>
      rw [hparse] at hrules
      cases hrules
      rfl

/-- A directory next to a template of its name, a directory that is passed over, and a link to a
directory that is reached another way as well. -/
def siblings : FileTree where
  entries := [([Utf8.encode "b.envt".toList], .file []),
    ([Utf8.encode "b".toList], .directory),
    ([Utf8.encode "b".toList, Utf8.encode "a.envt".toList], .file []),
    ([Utf8.encode "skip".toList], .directory),
    ([Utf8.encode "skip".toList, Utf8.encode "c.envt".toList], .file []),
    ([Utf8.encode "z".toList], .link (.ofText "b".toList))]
  distinct := by decide
  named := by decide

/-- Passing over the directory `skip` alone, by the length of its path, hides what is in it. -/
theorem collect_exact_siblings :
    Walk.IsExact ⟨siblings, defaultTemplateSuffix, fun path _ => path.bytes.length == 6⟩
      ⟨Path.dot⟩ [.ofText "./b/a.envt".toList, .ofText "./b.envt".toList,
        .ofText "./z/a.envt".toList] ∧
    ∃ rules, ExcludeRule.parseAll [] = .ok rules ∧
      Walk.IsExact ⟨siblings, defaultTemplateSuffix, excludedBy rules ⟨Path.dot⟩⟩ ⟨Path.dot⟩
        [.ofText "./b/a.envt".toList, .ofText "./b.envt".toList,
          .ofText "./skip/c.envt".toList, .ofText "./z/a.envt".toList] := by
  refine ⟨collect_exact.1 _ _ _ ?_, collect_exact.2 siblings ⟨Path.dot⟩ {} _ ?_⟩
  · cbv
  · cbv

end EnvTemplates
