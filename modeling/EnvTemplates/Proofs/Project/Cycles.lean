import EnvTemplates.Proofs.Project.Calls

/-!
# Cycles

Where a walk fails is said here of all names at once (`fails_iff`): they enter directories that are
not passed over, and the last of these cannot be listed, or it has the canonical path of one on the
way to it. A directory that is reached in two ways apart from each other is walked through twice.

A canonical path cannot always be had. The walk goes by the path that it has taken then, which is
that of no other directory that it is inside of (`identity_joinAll_eq_iff`), so that it sees no
cycle there and goes round it until the path is too long (`collect_misses_deep`).
-/

namespace EnvTemplates

namespace Walk

variable {s : Setting} {path root : Path} {name : Name} {names front more : List Name}
  {inside : List Identity} {directory directory' : Location} {e : Error}

/-! ### Directories on the way -/

/-- The names lead from a directory to a directory, each of them an entry of the one before, and
none of them is passed over. -/
def Enters (s : Setting) : Path → List Name → Prop
  | path, [] => s.tree.isDirectory path = true
  | path, name :: rest => s.tree.IsEntry path name ∧ s.excluded (path.join ⟨name⟩) true = false ∧
    Enters s (path.join ⟨name⟩) rest

theorem Enters.isName : ∀ {names : List Name} {path : Path}, Enters s path names →
    ∀ name ∈ names, Path.IsName name
  | [], _, _ => fun _ h => absurd h List.not_mem_nil
  | _ :: _, _, h => List.forall_mem_cons.2 ⟨h.1.isName, Enters.isName h.2.2⟩

theorem Enters.isDirectory (h : Enters s path names) : s.tree.isDirectory path = true := by
  cases names with
  | nil => exact h
  | cons name rest => exact isDirectory_of_isEntry h.1

/-- All directories on the way are there. -/
theorem Enters.exists_directory (h : Enters s path (front ++ more)) :
    ∃ directory, s.tree.directoryAt? (path.joinAll front) = some directory := by
  induction front generalizing path with
  | nil => exact Option.isSome_iff_exists.1 h.isDirectory
  | cons name front ih => exact ih h.2.2

theorem Enters.exists_last (h : Enters s path names) :
    ∃ directory, s.tree.directoryAt? (path.joinAll names) = some directory := by
  rw [← List.append_nil names] at h
  exact h.exists_directory

theorem isAbsolute_joinAll (hnames : ∀ name ∈ names, Path.IsName name) (path : Path) :
    (path.joinAll names).isAbsolute = path.isAbsolute := by
  rw [Bool.eq_iff_iff, ← Path.root_mem_components_iff, ← Path.root_mem_components_iff,
    Path.components_joinAll hnames]
  simp

/-- A canonical path is that of a directory which has none only if it has one after all. -/
theorem exists_canonicalize_joinAll {other : List Name} {canonical : Path}
    (hfront : ∀ name ∈ front, Path.IsName name) (hother : ∀ name ∈ other, Path.IsName name)
    (h : s.tree.directoryAt? (path.joinAll front) = some directory)
    (h' : s.tree.directoryAt? (path.joinAll other) = some directory')
    (hcanonical : s.tree.canonicalize (path.joinAll front) = .ok canonical)
    (hcomponents : (path.joinAll other).components = canonical.components) :
    ∃ canonical', s.tree.canonicalize (path.joinAll other) = .ok canonical' := by
  have habsolute : (path.joinAll front).isAbsolute = true := by
    rw [isAbsolute_joinAll hfront, ← isAbsolute_joinAll hother,
      ← Path.root_mem_components_iff, hcomponents, FileTree.components_canonicalize h hcanonical]
    exact List.mem_cons_self
  have hcheck := (FileTree.locate_eq_ok_iff.1 (FileTree.directoryAt?_eq_some_iff.1 h').1).1
  exact FileTree.exists_canonicalize h hcanonical habsolute hcheck hcomponents

/-- **What two directories on one way have in common.** The walk takes them for the same one if and
only if they have the same canonical path. -/
theorem identity_joinAll_eq_iff {names' : List Name} (hne : names ≠ names')
    (hnames : ∀ name ∈ names, Path.IsName name) (hnames' : ∀ name ∈ names', Path.IsName name)
    (h : s.tree.directoryAt? (path.joinAll names) = some directory)
    (h' : s.tree.directoryAt? (path.joinAll names') = some directory') :
    identity s.tree (path.joinAll names) = identity s.tree (path.joinAll names') ↔
      ∃ canonical, s.tree.canonicalize (path.joinAll names) = .ok canonical ∧
        s.tree.canonicalize (path.joinAll names') = .ok canonical := by
  rw [identity, identity]
  cases hp : s.tree.canonicalize (path.joinAll names) with
  | ok canonical =>
    cases hq : s.tree.canonicalize (path.joinAll names') with
    | ok canonical' =>
      have hsame : canonical.components = canonical'.components ↔ canonical = canonical' := by
        refine ⟨fun heq => ?_, congrArg _⟩
        rw [FileTree.components_canonicalize h hp, FileTree.components_canonicalize h' hq] at heq
        rw [FileTree.canonicalize_eq_iff h h' hp hq]
        exact Path.map_name_injective (List.cons.inj heq).2
      simp [hsame, eq_comm]
    | error e =>
      simp only [reduceCtorEq, and_false, exists_false, iff_false]
      intro heq
      obtain ⟨canonical', hfound⟩ :=
        exists_canonicalize_joinAll hnames hnames' h h' hp heq.symm
      rw [hq] at hfound
      cases hfound
  | error e =>
    simp only [reduceCtorEq, false_and, exists_false, iff_false]
    cases hq : s.tree.canonicalize (path.joinAll names') with
    | ok canonical =>
      intro heq
      obtain ⟨canonical', hfound⟩ := exists_canonicalize_joinAll hnames' hnames h' h hq heq
      rw [hp] at hfound
      cases hfound
    | error e =>
      simp only
      rw [Path.components_joinAll hnames, Path.components_joinAll hnames',
        List.append_cancel_left_eq]
      exact fun heq => hne (Path.map_name_injective heq)

/-! ### Cycles -/

/-- The names lead to a directory with the canonical path of one that they have passed. -/
def Repeats (s : Setting) (path : Path) (names : List Name) : Prop :=
  ∃ front more canonical, more ≠ [] ∧ names = front ++ more ∧
    s.tree.canonicalize (path.joinAll front) = .ok canonical ∧
    s.tree.canonicalize (path.joinAll names) = .ok canonical

/-- Entering directories, the names come to one that the walk is inside of by then. -/
structure IsCycle (s : Setting) (root : Path) (names : List Name) : Prop where
  enters : Enters s root names
  repeats : Repeats s root names

/-- Entering directories, the names come to one that cannot be listed. -/
structure IsUnlisted (s : Setting) (root : Path) (names : List Name) (cause : FileError) :
    Prop where
  enters : Enters s root names
  refusal : ∃ directory, s.tree.directoryAt? (root.joinAll names) = some directory ∧
    s.tree.refusal? .list directory = some cause

/-- All directories that the walk would enter can be listed. -/
def IsReadable (s : Setting) (root : Path) : Prop := ∀ names cause, ¬ IsUnlisted s root names cause

/-- Some of the names lead to a directory that the walk takes for the one at their end. -/
def Recurs (s : Setting) (path : Path) (names : List Name) : Prop :=
  ∃ front more, more ≠ [] ∧ names = front ++ more ∧
    identity s.tree (path.joinAll front) = identity s.tree (path.joinAll names)

theorem not_recurs_nil (s : Setting) (path : Path) : ¬ Recurs s path [] := by
  rintro ⟨front, more, hmore, hsplit, -⟩
  exact hmore (List.append_eq_nil_iff.1 hsplit.symm).2

theorem recurs_cons_iff {rest : List Name} : Recurs s path (name :: rest) ↔
    identity s.tree path = identity s.tree (path.joinAll (name :: rest)) ∨
      Recurs s (path.join ⟨name⟩) rest := by
  constructor
  · rintro ⟨front, more, hmore, hsplit, hsame⟩
    cases front with
    | nil => exact Or.inl hsame
    | cons first front =>
      obtain ⟨rfl, hrest⟩ := List.cons.inj hsplit
      exact Or.inr ⟨front, more, hmore, hrest, hsame⟩
  · rintro (hsame | ⟨front, more, hmore, rfl, hsame⟩)
    · exact ⟨[], name :: rest, List.cons_ne_nil _ _, rfl, hsame⟩
    · exact ⟨name :: front, more, hmore, rfl, hsame⟩

theorem recurs_iff_repeats (h : Enters s path names) :
    Recurs s path names ↔ Repeats s path names := by
  have hsame : ∀ front more, more ≠ [] → names = front ++ more →
      (identity s.tree (path.joinAll front) = identity s.tree (path.joinAll names) ↔
        ∃ canonical, s.tree.canonicalize (path.joinAll front) = .ok canonical ∧
          s.tree.canonicalize (path.joinAll names) = .ok canonical) := by
    rintro front more hmore rfl
    obtain ⟨directory, hdirectory⟩ := h.exists_directory
    obtain ⟨last, hlast⟩ := h.exists_last
    refine identity_joinAll_eq_iff ?_ (fun n hn => h.isName n (List.mem_append_left _ hn))
      h.isName hdirectory hlast
    intro heq
    exact hmore (List.self_eq_append_right.1 heq)
  constructor
  · rintro ⟨front, more, hmore, hsplit, heq⟩
    obtain ⟨canonical, hfront, hnames⟩ := (hsame front more hmore hsplit).1 heq
    exact ⟨front, more, canonical, hmore, hsplit, hfront, hnames⟩
  · rintro ⟨front, more, canonical, hmore, hsplit, hfront, hnames⟩
    exact ⟨front, more, hmore, hsplit,
      (hsame front more hmore hsplit).2 ⟨canonical, hfront, hnames⟩⟩

/-- Where a walk fails, told of all names at once. -/
theorem fails_iff : Fails s inside path names e ↔ Enters s path names ∧
    ((e = .symlinkCycle (path.joinAll names) ∧
        (identity s.tree (path.joinAll names) ∈ inside ∨ Recurs s path names)) ∨
      ∃ directory cause, s.tree.directoryAt? (path.joinAll names) = some directory ∧
        s.tree.refusal? .list directory = some cause ∧ e = .io cause) := by
  induction names generalizing path inside with
  | nil =>
    constructor
    · intro h
      cases h with
      | returned isDirectory hin => exact ⟨isDirectory, Or.inl ⟨rfl, Or.inl hin⟩⟩
      | unlisted found refusal =>
        have hdirectory := Refuses.isDirectory (.unlisted found refusal : Refuses s inside path _)
        exact ⟨hdirectory, Or.inr ⟨_, _, found, refusal, rfl⟩⟩
    · rintro ⟨henters, ⟨rfl, hin | hrecurs⟩ | ⟨directory, cause, hfound, hrefusal, rfl⟩⟩
      · exact Refuses.returned henters hin
      · exact absurd hrecurs (not_recurs_nil s path)
      · exact Refuses.unlisted hfound hrefusal
  | cons name rest ih =>
    rw [recurs_cons_iff]
    constructor
    · rintro ⟨hentry, hkept, hfails⟩
      obtain ⟨henters, hend⟩ := ih.1 hfails
      refine ⟨⟨hentry, hkept, henters⟩, ?_⟩
      rcases hend with ⟨he, hin | hrecurs⟩ | hunlisted
      · -- back at the directory that the first name stands in, or at one further out
        rcases List.mem_cons.1 hin with hhere | hin
        · exact Or.inl ⟨he, Or.inr (Or.inl hhere.symm)⟩
        · exact Or.inl ⟨he, Or.inl hin⟩
      · exact Or.inl ⟨he, Or.inr (Or.inr hrecurs)⟩
      · exact Or.inr hunlisted
    · rintro ⟨⟨hentry, hkept, henters⟩, hend⟩
      refine ⟨hentry, hkept, ih.2 ⟨henters, ?_⟩⟩
      rcases hend with ⟨he, hin | hhere | hrecurs⟩ | hunlisted
      · exact Or.inl ⟨he, Or.inl (List.mem_cons_of_mem _ hin)⟩
      · refine Or.inl ⟨he, Or.inl ?_⟩
        rw [hhere]
        exact List.mem_cons_self
      · exact Or.inl ⟨he, Or.inr hrecurs⟩
      · exact Or.inr hunlisted

/-- Where a walk fails with either error. -/
theorem fails_cases (h : Fails s inside path names e) :
    (e = .symlinkCycle (path.joinAll names) ∧ Enters s path names ∧
        (identity s.tree (path.joinAll names) ∈ inside ∨ Repeats s path names)) ∨
      ∃ cause, e = .io cause ∧ IsUnlisted s path names cause := by
  obtain ⟨henters, ⟨he, hend⟩ | ⟨directory, cause, hfound, hrefusal, he⟩⟩ := fails_iff.1 h
  · exact Or.inl ⟨he, henters, hend.imp id (recurs_iff_repeats henters).1⟩
  · exact Or.inr ⟨cause, he, henters, directory, hfound, hrefusal⟩

/-- A walk that can list all that it enters fails if and only if it comes back to a directory. -/
theorem walk_fails_iff {state : State} (h : IsReadable s path) :
    (∃ p, (walk s state path).result = .error (.symlinkCycle p)) ↔ ∃ names, Enters s path names ∧
      (identity s.tree (path.joinAll names) ∈ state.ancestors ∨ Repeats s path names) := by
  rcases walk_ends s ⟨state.ancestors, path⟩ state rfl with ⟨after, hok, -, hnone⟩ |
    ⟨names, e, herror, hfails⟩
  · rw [hok]
    refine iff_of_false nofun ?_
    rintro ⟨names, henters, hend⟩
    exact hnone names _ (fails_iff.2
      ⟨henters, Or.inl ⟨rfl, hend.imp id (recurs_iff_repeats henters).2⟩⟩)
  · rcases fails_cases hfails with ⟨rfl, henters, hend⟩ | ⟨cause, -, hunlisted⟩
    · exact iff_of_true ⟨_, herror⟩ ⟨names, henters, hend⟩
    · exact absurd hunlisted (h names cause)

/-- The search for templates finds some, or it fails at a cycle or at a directory that cannot be
listed. -/
theorem templates_cases (s : Setting) (root : Path) :
    ((∃ found, (templates s root).result = .ok found) ∧ (∀ names, ¬ IsCycle s root names) ∧
        IsReadable s root) ∨
      (∃ names, (templates s root).result = .error (.symlinkCycle (root.joinAll names)) ∧
        IsCycle s root names) ∨
      ∃ names cause, (templates s root).result = .error (.io cause) ∧
        IsUnlisted s root names cause := by
  rcases walk_ends s ⟨[], root⟩ {} rfl with ⟨after, hok, -, hnone⟩ | ⟨names, e, herror, hfails⟩
  · refine Or.inl ⟨⟨after.found, Run.result_bind_eq_ok.2 ⟨after, hok, rfl⟩⟩, ?_, ?_⟩
    · intro names hcycle
      exact hnone names _ (fails_iff.2 ⟨hcycle.enters,
        Or.inl ⟨rfl, Or.inr ((recurs_iff_repeats hcycle.enters).2 hcycle.repeats)⟩⟩)
    · rintro names cause ⟨henters, directory, hfound, hrefusal⟩
      exact hnone names _ (fails_iff.2
        ⟨henters, Or.inr ⟨directory, cause, hfound, hrefusal, rfl⟩⟩)
  · right
    rcases fails_cases hfails with ⟨rfl, henters, hin | hrepeats⟩ | ⟨cause, rfl, hunlisted⟩
    · exact absurd hin List.not_mem_nil
    · exact Or.inl ⟨names, Run.result_bind_eq_error.2 (Or.inl herror), henters, hrepeats⟩
    · exact Or.inr ⟨names, cause, Run.result_bind_eq_error.2 (Or.inl herror), hunlisted⟩

/-! ### Directories that are reached more than once -/

/-- A directory holds a template under a name. The path is one that leads to the directory; with
the name behind it, it is not too long, and the rules do not pass over it. -/
structure HoldsTemplate (s : Setting) (directory : Location) (path : Path) (name : Name) :
    Prop where
  isName : Path.IsName name
  node : ∃ contents, s.tree.node? (directory ++ [name]) = some (.file contents)
  length : name.length ≤ FileTree.maxName
  checked : FileTree.checkPath (path.join ⟨name⟩) = .ok ()
  kept : s.excluded (path.join ⟨name⟩) false = false
  suffix : ∃ text, Utf8.decode? name = some text ∧ s.suffix <:+ text

theorem leads_of_holdsTemplate {name : Name} (hpath : s.tree.directoryAt? path = some directory)
    (h : HoldsTemplate s directory path name) : Leads s path [name] := by
  obtain ⟨contents, hnode⟩ := h.node
  obtain ⟨hlocate, hdirectory⟩ := FileTree.directoryAt?_eq_some_iff.1 hpath
  have hentry : name ∈ s.tree.names directory :=
    FileTree.mem_names_iff.2 (List.mem_map_of_mem (FileTree.mem_of_node? (by simp) hnode))
  have hlink : ∀ target, Node.file contents ≠ .link target := by
    intro target heq
    cases heq
  have hfile : s.tree.isFile (path.join ⟨name⟩) = true := by
    rw [FileTree.isFile, FileTree.nodeAt?,
      FileTree.locate_join_name h.isName hlocate hdirectory hnode hlink h.length h.checked]
    simp only [hnode]
  exact ⟨⟨directory, hpath, hentry⟩, h.kept, hfile,
    (isTemplate_join_name_iff h.isName path s.suffix).2 h.suffix⟩

/-- What a directory leads to, its parents lead to. -/
theorem leads_append {front : List Name} (hfront : Enters s path front)
    (h : Leads s (path.joinAll front) names) : Leads s path (front ++ names) := by
  induction front generalizing path with
  | nil => exact h
  | cons name front ih =>
    obtain ⟨hentry, hkept, hfront⟩ := hfront
    exact ⟨hentry, (admits_iff_of_directory hfront.isDirectory).2 ⟨hkept, ih hfront h⟩⟩

theorem count_eq_one {found : List Path} {front : List Name}
    (hfound : (templates s root).result = .ok found) (hfront : Enters s root front)
    (h : Leads s (root.joinAll front) names) : found.count (root.joinAll (front ++ names)) = 1 := by
  have hexact := isExact_of_templates hfound
  apply List.count_eq_one_of_mem hexact.nodup
  exact (hexact.mem_iff _).2 ⟨_, leads_iff_isSelected.1 (leads_append hfront h), rfl⟩

/-- A directory that is reached in two ways is not reached through itself, unless there is a cycle
or one of the ways has no canonical path. -/
theorem not_prefix_of_not_cycle (hnone : ∀ names, ¬ IsCycle s root names) {other : List Name}
    (hother : Enters s root other) (hne : front ≠ other) {canonical canonical' : Path}
    (hcanonical : s.tree.canonicalize (root.joinAll front) = .ok canonical)
    (hcanonical' : s.tree.canonicalize (root.joinAll other) = .ok canonical')
    (hsame : s.tree.directoryAt? (root.joinAll front) = s.tree.directoryAt? (root.joinAll other)) :
    ¬ front <+: other := by
  rintro ⟨more, rfl⟩
  obtain ⟨directory, hdirectory⟩ := hother.exists_directory
  obtain ⟨last, hlast⟩ := hother.exists_last
  have heq := (FileTree.canonicalize_eq_iff hdirectory hlast hcanonical hcanonical').2
    (Option.some.inj (hdirectory.symm.trans (hsame.trans hlast)))
  refine hnone _ ⟨hother, front, more, canonical, ?_, rfl, hcanonical, heq ▸ hcanonical'⟩
  rintro rfl
  exact hne (List.append_nil front).symm

/-- What a search for templates says about cycles, and about directories that are reached more than
once. -/
structure SeesCycles (s : Setting) (root : Path) (result : Except Error (List Path)) : Prop where
  /-- The search finds some templates, or it names the end of a cycle, or it comes to a directory
  that cannot be listed. -/
  ends : (∃ found, result = .ok found) ∨
    (∃ names, result = .error (.symlinkCycle (root.joinAll names)) ∧ IsCycle s root names) ∨
    ∃ names cause, result = .error (.io cause) ∧ IsUnlisted s root names cause
  /-- If all directories can be listed, it fails if and only if there is a cycle. -/
  fails_iff : IsReadable s root →
    ((∃ path, result = .error (.symlinkCycle path)) ↔ ∃ names, IsCycle s root names)
  /-- A template is listed once for each way to a directory that it is below. -/
  listed : ∀ found, result = .ok found → ∀ front names, Enters s root front →
    Leads s (root.joinAll front) names → found.count (root.joinAll (front ++ names)) = 1
  /-- What a directory holds is listed for each of two ways to it. -/
  shared : ∀ found, result = .ok found → ∀ front other directory, front ≠ other →
    Enters s root front → Enters s root other →
    s.tree.directoryAt? (root.joinAll front) = some directory →
    s.tree.directoryAt? (root.joinAll other) = some directory →
    ∀ name, HoldsTemplate s directory (root.joinAll front) name →
      HoldsTemplate s directory (root.joinAll other) name →
      root.joinAll (front ++ [name]) ≠ root.joinAll (other ++ [name]) ∧
      found.count (root.joinAll (front ++ [name])) = 1 ∧
      found.count (root.joinAll (other ++ [name])) = 1
  /-- Two ways to the same directory are not one inside the other, if they have canonical paths. -/
  apart : ∀ found, result = .ok found → ∀ front other canonical canonical', front ≠ other →
    Enters s root front → Enters s root other →
    s.tree.directoryAt? (root.joinAll front) = s.tree.directoryAt? (root.joinAll other) →
    s.tree.canonicalize (root.joinAll front) = .ok canonical →
    s.tree.canonicalize (root.joinAll other) = .ok canonical' →
    ¬ front <+: other ∧ ¬ other <+: front

theorem seesCycles_templates (s : Setting) (root : Path) :
    SeesCycles s root (templates s root).result := by
  have hcases := templates_cases s root
  have hnone : ∀ found, (templates s root).result = .ok found →
      ∀ names, ¬ IsCycle s root names := by
    intro found hfound
    rcases hcases with ⟨-, hnone, -⟩ | ⟨names, herror, -⟩ | ⟨names, cause, herror, -⟩
    · exact hnone
    · rw [hfound] at herror
      cases herror
    · rw [hfound] at herror
      cases herror
  refine ⟨hcases.imp And.left id, ?_, ?_, ?_, ?_⟩
  · intro hreadable
    rcases hcases with ⟨⟨found, hok⟩, hnone, -⟩ | ⟨names, herror, hcycle⟩ |
      ⟨names, cause, -, hunlisted⟩
    · rw [hok]
      exact iff_of_false nofun fun ⟨names, hcycle⟩ => hnone names hcycle
    · exact iff_of_true ⟨_, herror⟩ ⟨names, hcycle⟩
    · exact absurd hunlisted (hreadable names cause)
  · intro found hfound front names hfront hleads
    exact count_eq_one hfound hfront hleads
  · intro found hfound front other directory hne hfront hother hpath hpath' name hname hname'
    refine ⟨?_, count_eq_one hfound hfront (leads_of_holdsTemplate hpath hname),
      count_eq_one hfound hother (leads_of_holdsTemplate hpath' hname')⟩
    intro heq
    have hlast : ∀ n ∈ [name], Path.IsName n := List.forall_mem_singleton.2 hname.isName
    have hsame := Path.joinAll_inj
      (List.forall_mem_append.2 ⟨hfront.isName, hlast⟩)
      (List.forall_mem_append.2 ⟨hother.isName, hlast⟩) heq
    exact hne (List.append_cancel_right hsame)
  · intro found hfound front other first last hne hfront hother hsame hfirst hlast
    exact ⟨not_prefix_of_not_cycle (hnone found hfound) hother hne hfirst hlast hsame,
      not_prefix_of_not_cycle (hnone found hfound) hfront hne.symm hlast hfirst hsame.symm⟩

end Walk

open Walk

theorem collect_eq_templates {t : FileTree} {root : Path} {options : Options}
    {rules : List ExcludeRule} (h : ExcludeRule.parseAll options.exclude = .ok rules) :
    collect t root options = templates ⟨t, options.templateSuffix, excludedBy rules root⟩ root := by
  rw [collect, h]
  rfl

/-- **The walk terminates, and sees the cycles that canonical paths show.** Its calls come to an end
in every tree, and it is the only function that satisfies the equation of the recursion without a
bound. It leaves the directories that it has entered. If it can list them all, it fails if and only
if it comes to a directory that it is inside of, be it one that it was inside of at the start; so
the search for the templates of a project fails if and only if there is a cycle, and a directory
that is reached in several ways is not taken for one. Directories with canonical paths are the same
one if and only if these are. -/
theorem collect_sees_cycles :
    (∀ s, WellFounded (Calls s) ∧ walk s = step s (walk s) ∧
      ∀ visit, visit = step s visit → visit = walk s) ∧
    (∀ s state path after, (walk s state path).result = .ok after →
      after.ancestors = state.ancestors) ∧
    (∀ s state path, IsReadable s path →
      ((∃ p, (walk s state path).result = .error (.symlinkCycle p)) ↔
        ∃ names, Enters s path names ∧
          (identity s.tree (path.joinAll names) ∈ state.ancestors ∨ Repeats s path names))) ∧
    (∀ (t : FileTree) (p q : Path) (directory directory' : Location) (canonical canonical' : Path),
      t.directoryAt? p = some directory → t.directoryAt? q = some directory' →
      t.canonicalize p = .ok canonical → t.canonicalize q = .ok canonical' →
      (canonical = canonical' ↔ directory = directory')) ∧
    ∀ (t : FileTree) (root : Path) (options : Options) (rules : List ExcludeRule),
      ExcludeRule.parseAll options.exclude = .ok rules →
      SeesCycles ⟨t, options.templateSuffix, excludedBy rules root⟩ root
        (collect t root options).result := by
  refine ⟨?_, ?_, ?_, ?_, ?_⟩
  · intro s
    exact ⟨wellFounded_calls s, walk_eq_step s, fun visit => eq_walk_of_eq_step⟩
  · intro s state path after hafter
    exact (visit_adds _ hafter).1
  · intro s state path hreadable
    exact walk_fails_iff hreadable
  · intro t p q directory directory' canonical canonical' hp hq hcanonical hcanonical'
    exact FileTree.canonicalize_eq_iff hp hq hcanonical hcanonical'
  · intro t root options rules hrules
    rw [collect_eq_templates hrules]
    exact seesCycles_templates _ root

/-- A directory with a link back to the one that it is in. -/
def looped : FileTree where
  entries := [([Utf8.encode "sub".toList], .directory),
    ([Utf8.encode "sub".toList, Utf8.encode "up".toList], .link (.ofText "..".toList))]
  distinct := by decide
  named := by decide

/-- A directory with a link to it from next to it. -/
def shared : FileTree where
  entries := [([Utf8.encode "b".toList], .directory),
    ([Utf8.encode "b".toList, Utf8.encode "a.envt".toList], .file []),
    ([Utf8.encode "z".toList], .link (.ofText "b".toList))]
  distinct := by decide
  named := by decide

/-- The search in a project without rules. -/
def plainSetting (t : FileTree) (root : Path) : Setting :=
  ⟨t, defaultTemplateSuffix, excludedBy [] root⟩

theorem isReadable_of_faults (s : Setting) (root : Path) (h : s.tree.faults = []) :
    IsReadable s root := by
  rintro names cause ⟨-, directory, -, hrefusal⟩
  rw [FileTree.refusal?, h] at hrefusal
  cases hrefusal

/-- The link leads back to the root, which is a cycle, also for a walk that is inside of the root
when it starts. A link to a sibling is none, and what the sibling holds is listed under both
names. -/
theorem collect_sees_cycles_links :
    (∃ names, IsCycle (plainSetting looped ⟨Path.dot⟩) ⟨Path.dot⟩ names) ∧
    (∃ p, (walk (plainSetting looped ⟨Path.dot⟩) ⟨[identity looped ⟨Path.dot⟩], []⟩
      ⟨Path.dot⟩).result = .error (.symlinkCycle p)) ∧
    ∃ found : List Path, (collect shared ⟨Path.dot⟩ {}).result = .ok found ∧
      found.count (.ofText "./b/a.envt".toList) = 1 ∧
      found.count (.ofText "./z/a.envt".toList) = 1 ∧
      shared.directoryAt? (.ofText "./b".toList) = shared.directoryAt? (.ofText "./z".toList) := by
  obtain ⟨-, -, hwalk, hcanonical, hcollect⟩ := collect_sees_cycles
  have hreadable := isReadable_of_faults (plainSetting looped ⟨Path.dot⟩) ⟨Path.dot⟩ rfl
  refine ⟨?_, ?_, ?_⟩
  · have herror : (collect looped ⟨Path.dot⟩ {}).result =
        .error (.symlinkCycle (.ofText "./sub/up".toList)) := by
      cbv
    exact ((hcollect looped ⟨Path.dot⟩ {} [] rfl).fails_iff hreadable).1 ⟨_, herror⟩
  · apply (hwalk (plainSetting looped ⟨Path.dot⟩) _ ⟨Path.dot⟩ hreadable).2
    exact ⟨[], by cbv, Or.inl List.mem_cons_self⟩
  · have hfound : (collect shared ⟨Path.dot⟩ {}).result =
        .ok [.ofText "./b/a.envt".toList, .ofText "./z/a.envt".toList] := by
      cbv
    have hways : ∀ name, name = Utf8.encode "b".toList ∨ name = Utf8.encode "z".toList →
        Enters (plainSetting shared ⟨Path.dot⟩) ⟨Path.dot⟩ [name] ∧
        HoldsTemplate (plainSetting shared ⟨Path.dot⟩) [Utf8.encode "b".toList]
          (Path.joinAll ⟨Path.dot⟩ [name]) (Utf8.encode "a.envt".toList) := by
      rintro name (rfl | rfl)
      all_goals
        exact ⟨⟨⟨[], by cbv, FileTree.mem_names_iff.2 (by decide)⟩, by cbv, by cbv⟩,
          by decide, ⟨[], by cbv⟩, by decide, by cbv, by cbv, "a.envt".toList, by cbv, by decide⟩
    obtain ⟨hfirst, hholds⟩ := hways _ (Or.inl rfl)
    obtain ⟨hsecond, hholds'⟩ := hways _ (Or.inr rfl)
    have hsees := hcollect shared ⟨Path.dot⟩ {} [] rfl
    obtain ⟨-, hcount, hcount'⟩ := hsees.shared _ hfound _ _ [Utf8.encode "b".toList] (by decide)
      hfirst hsecond (by cbv) (by cbv) _ hholds hholds'
    have hsame := hcanonical shared (.ofText "./b".toList) (.ofText "./z".toList)
      [Utf8.encode "b".toList] [Utf8.encode "b".toList] (.ofText "/b".toList)
      (.ofText "/b".toList) (by cbv) (by cbv) (by cbv) (by cbv)
    refine ⟨_, hfound, hcount, hcount', ?_⟩
    cbv

/-! ### A cycle that is too deep -/

/-- A name of two hundred and fifty letters. -/
def longName : Name := List.replicate 250 0x64

/-- Directories with long names, each in the one before. -/
def deep (depth : Nat) : Location := List.replicate depth longName

def loopName : Name := Utf8.encode "loop".toList

/-- The short way to the last of the directories. -/
def deepRoot : Path := .ofText "r".toList

/-- Seventeen directories inside of each other, the last of which holds a link to itself. No path
from the root directory is long enough for it, but short links lead to it. -/
def deepEntries : List (Location × Node) :=
  (List.range 17).map (fun depth => (deep (depth + 1), .directory)) ++
    [([Utf8.encode "m".toList], .link (.ofSegments (deep 10))),
      ([Utf8.encode "r".toList], .link (.ofSegments (Utf8.encode "m".toList :: deep 7))),
      (deep 17 ++ [loopName], .link ⟨Path.dot⟩)]

theorem keys_deepEntries : deepEntries.map (·.1) =
    (List.range 17).map (fun depth => deep (depth + 1)) ++ [[Utf8.encode "m".toList],
      [Utf8.encode "r".toList], deep 17 ++ [loopName]] := by
  rw [deepEntries, List.map_append, List.map_map]
  rfl

theorem length_deep (depth : Nat) : (deep depth).length = depth := List.length_replicate

theorem deep_succ (depth : Nat) : deep (depth + 1) = deep depth ++ [longName] :=
  List.replicate_succ'

theorem isNamed_deep (depth : Nat) : (deep depth).IsNamed := by
  intro name hname
  rw [List.eq_of_mem_replicate hname]
  decide

theorem nodup_keys_deepEntries : (deepEntries.map (·.1)).Nodup := by
  have hshort : longName ≠ Utf8.encode "m".toList ∧ longName ≠ Utf8.encode "r".toList := by decide
  rw [keys_deepEntries, List.nodup_append]
  refine ⟨?_, by decide, ?_⟩
  · refine List.Nodup.map (fun depth depth' h => ?_) List.nodup_range
    have hlength := congrArg List.length h
    rw [length_deep, length_deep] at hlength
    exact Nat.succ.inj hlength
  · intro l hl l' hl'
    obtain ⟨depth, hdepth, rfl⟩ := List.mem_map.1 hl
    rw [List.mem_range] at hdepth
    simp only [List.mem_cons, List.not_mem_nil, or_false] at hl'
    rcases hl' with rfl | rfl | rfl
    · exact fun h => hshort.1 (List.cons.inj h).1
    · exact fun h => hshort.2 (List.cons.inj h).1
    · intro h
      have hlength := congrArg List.length h
      rw [List.length_append, length_deep, length_deep, List.length_singleton] at hlength
      omega

def deepTree : FileTree where
  entries := deepEntries
  distinct := nodup_keys_deepEntries
  named := by
    rw [keys_deepEntries]
    refine List.forall_mem_append.2 ⟨?_, by decide⟩
    intro l hl
    obtain ⟨depth, -, rfl⟩ := List.mem_map.1 hl
    exact isNamed_deep _

namespace FileTree

theorem node?_deep {depth : Nat} (h : depth ≤ 17) :
    deepTree.node? (deep depth) = some .directory := by
  cases depth with
  | zero => rfl
  | succ depth =>
    apply node?_of_mem (List.cons_ne_nil _ _)
    exact List.mem_append_left _ (List.mem_map.2 ⟨depth, List.mem_range.2 (by omega), rfl⟩)

theorem node?_deepTree_links :
    deepTree.node? [Utf8.encode "m".toList] = some (.link (.ofSegments (deep 10))) ∧
      deepTree.node? [Utf8.encode "r".toList] =
        some (.link (.ofSegments (Utf8.encode "m".toList :: deep 7))) ∧
      deepTree.node? (deep 17 ++ [loopName]) = some (.link ⟨Path.dot⟩) := by
  refine ⟨node?_of_mem (List.cons_ne_nil _ _) (List.mem_append_right _ ?_),
    node?_of_mem (List.cons_ne_nil _ _) (List.mem_append_right _ ?_),
    node?_of_mem (List.cons_ne_nil _ _) (List.mem_append_right _ ?_)⟩
  · exact List.mem_cons_self
  · exact List.mem_cons_of_mem _ List.mem_cons_self
  · exact List.mem_cons_of_mem _ (List.mem_cons_of_mem _ List.mem_cons_self)

/-- The last directory holds nothing but the link. -/
theorem mem_names_deep_iff {name : Name} : name ∈ deepTree.names (deep 17) ↔ name = loopName := by
  have hkeys : name ∈ deepTree.names (deep 17) ↔ deep 17 ++ [name] ∈ deepEntries.map (·.1) :=
    mem_names_iff
  have hother : ∀ l : Location, l.length ≤ 17 → deep 17 ++ [name] ≠ l := by
    rintro l hle rfl
    rw [List.length_append, length_deep, List.length_singleton] at hle
    omega
  rw [hkeys, keys_deepEntries, List.mem_append]
  constructor
  · rintro (hkey | hkey)
    · obtain ⟨depth, hdepth, heq⟩ := List.mem_map.1 hkey
      rw [List.mem_range] at hdepth
      refine absurd heq.symm (hother _ ?_)
      rw [length_deep]
      omega
    · simp only [List.mem_cons, List.not_mem_nil, or_false] at hkey
      rcases hkey with heq | heq | heq
      · exact absurd heq (hother _ (by decide))
      · exact absurd heq (hother _ (by decide))
      · exact (List.cons.inj (List.append_cancel_left heq)).1
  · rintro rfl
    exact Or.inr (List.mem_cons_of_mem _ (List.mem_cons_of_mem _ List.mem_cons_self))

/-- From one of the directories to one that is further in. -/
theorem resolves_deep {links : Nat} {rest : List Bytes} {arrival : Arrival} (depth more : Nat)
    (h : Resolves deepTree links (deep (depth + more)) rest arrival)
    (hle : depth + more ≤ 17) :
    Resolves deepTree links (deep depth) (deep more ++ rest) arrival := by
  have hsearched : IsSearched longName := by
    refine ⟨by decide, by decide, ?_⟩
    rw [longName, List.length_replicate]
    decide
  induction more generalizing depth with
  | zero => exact h
  | succ more ih =>
    rw [← Nat.add_assoc, Nat.add_right_comm] at h
    have hnext := ih (depth + 1) h (by omega)
    rw [deep_succ] at hnext
    have hnode : deepTree.node? (deep depth ++ [longName]) = some .directory := by
      rw [← deep_succ]
      exact node?_deep (by omega)
    refine .enter (node?_deep (by omega)) hsearched hnode ?_ hnext
    intro target heq
    cases heq

/-- Two links are followed on the short way to the last directory. -/
theorem resolves_deepRoot : Resolves deepTree maxLinks [] deepRoot.segments (deep 17, 38) := by
  obtain ⟨hm, hr, -⟩ := node?_deepTree_links
  have hstart : ∀ target, start [] target = [] := fun target => ite_self []
  have hsegments : ∀ {names : Location}, names.IsNamed → names ≠ [] →
      (Path.ofSegments names).segments = names := by
    intro names hnames hne
    exact Path.fields_ofSegments (fun name hname => (hnames name hname).2.2) hne
  refine .follow rfl ⟨by decide, by decide, by decide⟩ hr ?_
  rw [hstart, hsegments (List.forall_mem_cons.2 ⟨by decide, isNamed_deep 7⟩) (List.cons_ne_nil _ _)]
  refine .follow rfl ⟨by decide, by decide, by decide⟩ hm ?_
  rw [hstart, hsegments (isNamed_deep 10) (List.cons_ne_nil _ _)]
  refine resolves_deep 0 10 ?_ (by omega)
  exact resolves_deep 10 7 .arrive (by omega)

/-- The link leads back to the directory that it is in. -/
theorem resolves_loop_iff {links : Nat} {arrival : Arrival} :
    Resolves deepTree links (deep 17) [loopName] arrival ↔
      ∃ left, links = left + 1 ∧ arrival = (deep 17, left) := by
  obtain ⟨-, -, hloop⟩ := node?_deepTree_links
  constructor
  · intro h
    cases h with
    | idle directory idle more => exact absurd idle (by decide)
    | up directory dots more => exact absurd dots (by decide)
    | enter directory searched node notLink more =>
      exact absurd (Option.some.inj (node.symm.trans hloop)) (notLink _)
    | follow directory searched link more =>
      obtain rfl := Node.link.inj (Option.some.inj (link.symm.trans hloop))
      cases more with
      | idle directory idle more =>
        cases more
        exact ⟨_, rfl, rfl⟩
      | up directory dots more => exact absurd dots (by decide)
      | enter directory searched => exact absurd searched.1 (by decide)
      | follow directory searched => exact absurd searched.1 (by decide)
  · rintro ⟨left, rfl, rfl⟩
    refine .follow (node?_deep (Nat.le_refl _)) ⟨by decide, by decide, by decide⟩ hloop ?_
    exact .idle (node?_deep (Nat.le_refl _)) (by decide) .arrive

/-- The last directory is too deep for a canonical path. -/
theorem canonicalize_deep {p canonical : Path} (hp : deepTree.directoryAt? p = some (deep 17)) :
    deepTree.canonicalize p ≠ .ok canonical := by
  intro h
  have hstart : start deepTree.workingDirectory p = [] := ite_self []
  have hknown := isKnown_of_canonicalize hp h hstart
  obtain ⟨n, hfound, -⟩ := hknown.found (deep 17) [] (List.append_nil _).symm (List.cons_ne_nil _ _)
  have hlength := (checkPath_eq_ok_iff.1 (lookUp_eq_ok_iff.1 hfound).1).2.2
  have hpathOf : (pathOf (deep 17)).bytes.length = 17 * 251 := by
    show ((deep 17).flatMap fun name => Path.slash :: name).length = 17 * 251
    rw [List.length_flatMap, deep, List.map_replicate, List.sum_replicate, List.length_cons,
      longName, List.length_replicate, smul_eq_mul]
  rw [hpathOf] at hlength
  exact absurd hlength (by decide)

end FileTree

open FileTree in
/-- All directories that are entered from the last one are this one. -/
theorem directoryAt?_of_enters_deep {s : Setting} {path : Path} {names : List Name}
    (hs : s.tree = deepTree) (hpath : deepTree.directoryAt? path = some (deep 17))
    (h : Enters s path names) : deepTree.directoryAt? (path.joinAll names) = some (deep 17) := by
  induction names generalizing path with
  | nil => exact hpath
  | cons name names ih =>
    obtain ⟨⟨directory, hdirectory, hname⟩, -, hrest⟩ := h
    rw [hs, hpath] at hdirectory
    obtain rfl := Option.some.inj hdirectory
    rw [hs, mem_names_deep_iff] at hname
    subst hname
    refine ih ?_ hrest
    obtain ⟨next, hnext⟩ := Option.isSome_iff_exists.1 hrest.isDirectory
    rw [hs] at hnext
    have hloop : Path.IsName loopName := by decide
    obtain ⟨left, hresolves, -⟩ := resolves_of_directoryAt? hpath
    obtain ⟨left', hjoin, -⟩ := resolves_of_directoryAt? hnext
    rw [start_join_name hloop,
      resolves_join_name_iff hloop (checkPath_of_directoryAt? hpath).1 hresolves] at hjoin
    obtain ⟨rest, -, heq⟩ := resolves_loop_iff.1 hjoin
    obtain ⟨rfl, -⟩ := Prod.mk.inj heq
    exact hnext

open FileTree in
/-- **A cycle is not seen where canonical paths cannot be had.** All directories can be listed, and
the root is entered again by way of the link in it, but the search does not fail. -/
theorem collect_misses_deep :
    IsReadable (plainSetting deepTree deepRoot) deepRoot ∧
      Enters (plainSetting deepTree deepRoot) deepRoot [loopName] ∧
      deepTree.directoryAt? deepRoot = some (deep 17) ∧
      deepTree.directoryAt? (deepRoot.joinAll [loopName]) = some (deep 17) ∧
      ∃ found, (collect deepTree deepRoot {}).result = .ok found := by
  have hreadable := isReadable_of_faults (plainSetting deepTree deepRoot) deepRoot rfl
  have hlast : deepTree.node? (deep 17) = some .directory := node?_deep (Nat.le_refl _)
  have hroot : deepTree.directoryAt? deepRoot = some (deep 17) :=
    directoryAt?_eq_some_iff.2
      ⟨locate_eq_ok_iff.2 ⟨rfl, 38, resolve_eq_ok_iff.2 resolves_deepRoot⟩, hlast⟩
  have hloop : deepTree.directoryAt? (deepRoot.join ⟨loopName⟩) = some (deep 17) := by
    refine directoryAt?_eq_some_iff.2 ⟨locate_eq_ok_iff.2 ⟨by decide, 37, ?_⟩, hlast⟩
    apply resolve_eq_ok_iff.2
    apply (resolves_join_name_iff (by decide) (by decide) resolves_deepRoot).2
    exact resolves_loop_iff.2 ⟨37, rfl, rfl⟩
  have henters : Enters (plainSetting deepTree deepRoot) deepRoot [loopName] := by
    refine ⟨⟨deep 17, hroot, mem_names_deep_iff.2 rfl⟩, rfl, ?_⟩
    exact Option.isSome_iff_exists.2 ⟨_, hloop⟩
  refine ⟨hreadable, henters, hroot, hloop, ?_⟩
  have hrules : ExcludeRule.parseAll ({} : Options).exclude = .ok [] := rfl
  rw [collect_eq_templates hrules]
  rcases templates_cases (plainSetting deepTree deepRoot) deepRoot with ⟨hok, -⟩ |
    ⟨names, -, henters, front, more, canonical, -, -, -, hcanonical⟩ |
    ⟨names, cause, -, hunlisted⟩
  · exact hok
  · exact absurd hcanonical (canonicalize_deep (directoryAt?_of_enters_deep rfl hroot henters))
  · exact absurd hunlisted (hreadable names cause)

end EnvTemplates
