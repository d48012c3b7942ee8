import EnvTemplates.Proofs.FileTree.Entries

/-!
# Canonical paths

The canonical path of a directory spells out where it is. It is found by going along a path once
more, with a look-up of each place on the way by its own path from the root directory. A look-up may
fail where the resolution of the path does not, since a place can be too deep for it. If none fails,
the way leads to the same place (`Resolves.retraceFrom_eq`), so that canonical paths tell
directories apart (`canonicalize_eq_iff`).
-/

namespace EnvTemplates.FileTree

variable {t t' : FileTree} {links : Nat} {here l l' : Location} {part : Bytes}
  {parts rest : List Bytes} {arrival : Arrival} {n : Node} {p q canonical canonical' : Path}

/-! ### Paths of locations -/

theorem fields_flatMap_slash (hl : l.IsNamed) (before : Bytes) :
    fields (· == Path.slash) (before ++ l.flatMap fun name => Path.slash :: name) =
      fields (· == Path.slash) before ++ l := by
  induction l generalizing before with
  | nil => simp
  | cons name l ih =>
    obtain ⟨hname, hl⟩ := List.forall_mem_cons.1 hl
    rw [List.flatMap_cons, ← List.append_assoc, ih hl, Path.fields_append_slash, hname.fields_eq,
      List.append_assoc]
    rfl

theorem filterMap_component?_of_isNamed (hl : l.IsNamed) :
    l.filterMap Path.component? = l.map .name := by
  induction l with
  | nil => rfl
  | cons name l ih =>
    obtain ⟨hname, hl⟩ := List.forall_mem_cons.1 hl
    rw [List.filterMap_cons_some hname.component?, ih hl, List.map_cons]

theorem steps_pathOf (hl : l.IsNamed) : (pathOf l).steps = l.map .name := by
  cases l with
  | nil => decide
  | cons name l =>
    have hsegments := fields_flatMap_slash hl []
    rw [List.nil_append] at hsegments
    rw [Path.steps, Path.segments]
    show (fields (· == Path.slash) ((name :: l).flatMap _)).filterMap Path.component? = _
    rw [hsegments, List.filterMap_append, filterMap_component?_of_isNamed hl]
    rfl

/-- The path of a location spells out its names. -/
theorem components_pathOf (hl : l.IsNamed) : (pathOf l).components = .root :: l.map .name := by
  have habsolute : (pathOf l).isAbsolute = true := by
    cases l <;> rfl
  rw [Path.components_eq, steps_pathOf hl, habsolute, Path.front, habsolute]
  rfl

theorem pathOf_inj (hl : l.IsNamed) (hl' : l'.IsNamed) (h : pathOf l = pathOf l') : l = l' := by
  have hcomponents := congrArg Path.components h
  rw [components_pathOf hl, components_pathOf hl'] at hcomponents
  exact Path.map_name_injective (List.cons.inj hcomponents).2

/-! ### Looking up the places on a way -/

theorem lookUp_eq_ok_iff :
    t.lookUp l = .ok n ↔ checkPath (pathOf l) = .ok () ∧ t.node? l = some n := by
  rw [lookUp]
  cases checkPath (pathOf l) with
  | error e => simp [bind, Except.bind]
  | ok u => cases t.node? l <;> simp [bind, Except.bind]

theorem retraceFrom_nil (links : Nat) (here : Location) :
    t.retraceFrom links here [] = .ok here := by
  cases links <;> rfl

theorem retraceFrom_idle (h : Path.isIdle part = true) :
    t.retraceFrom links here (part :: rest) = t.retraceFrom links here rest := by
  cases links <;> simp only [retraceFrom, retrace, h, if_true]

theorem retraceFrom_dots :
    t.retraceFrom links here (Path.dots :: rest) = t.retraceFrom links here.dropLast rest := by
  have hidle : Path.isIdle Path.dots = false := by decide
  cases links <;>
    simp only [retraceFrom, retrace, hidle, Bool.false_eq_true, if_false, if_true]

/-- Go on from what was found under a name. -/
def goOn (t : FileTree) (here : Location) (part : Bytes) (rest : List Bytes) :
    (links : Nat) → Node → Except FileError Location
  | 0, .link _ => .error .linkLoop
  | links + 1, .link target => t.retraceFrom links (start here target) (target.segments ++ rest)
  | links, _ => t.retraceFrom links (here ++ [part]) rest

theorem retraceFrom_searched (h : IsSearched part) :
    t.retraceFrom links here (part :: rest) =
      (t.lookUp (here ++ [part])).bind (t.goOn here part rest links) := by
  obtain ⟨hidle, hdots, hlength⟩ := h
  cases links <;>
  · simp only [retraceFrom, retrace, hidle, Bool.false_eq_true, if_false, if_neg hdots,
      if_neg (Nat.not_lt.2 hlength)]
    cases t.lookUp (here ++ [part]) with
    | error e => rfl
    | ok n => cases n <;> rfl

theorem goOn_of_not_link (h : ∀ target, n ≠ .link target) :
    t.goOn here part rest links n = t.retraceFrom links (here ++ [part]) rest := by
  cases n with
  | link target => exact absurd rfl (h target)
  | file contents => cases links <;> rfl
  | directory => cases links <;> rfl

/-- What was found on the way is what stands there. -/
theorem eq_ok_of_retraceFrom (h : IsSearched part) (hnode : t.node? (here ++ [part]) = some n)
    (hretrace : t.retraceFrom links here (part :: rest) = .ok l) :
    t.lookUp (here ++ [part]) = .ok n ∧ t.goOn here part rest links n = .ok l := by
  rw [retraceFrom_searched h] at hretrace
  cases hfound : t.lookUp (here ++ [part]) with
  | error e =>
    rw [hfound] at hretrace
    cases hretrace
  | ok n' =>
    obtain ⟨-, hnode'⟩ := lookUp_eq_ok_iff.1 hfound
    obtain rfl := Option.some.inj (hnode'.symm.trans hnode)
    rw [hfound] at hretrace
    exact ⟨rfl, hretrace⟩

/-- **A path that is gone along leads to where it is resolved to.** -/
theorem Resolves.retraceFrom_eq (h : Resolves t links here parts arrival) :
    ∀ {links' : Nat}, t.retraceFrom links' here parts = .ok l → l = arrival.1 := by
  induction h with
  | arrive =>
    intro links' hretrace
    rw [retraceFrom_nil] at hretrace
    exact (Except.ok.inj hretrace).symm
  | idle directory idle more ih =>
    intro links' hretrace
    rw [retraceFrom_idle idle] at hretrace
    exact ih hretrace
  | up directory dots more ih =>
    intro links' hretrace
    rw [dots, retraceFrom_dots] at hretrace
    exact ih hretrace
  | enter directory searched node notLink more ih =>
    intro links' hretrace
    obtain ⟨-, hmore⟩ := eq_ok_of_retraceFrom searched node hretrace
    rw [goOn_of_not_link notLink] at hmore
    exact ih hmore
  | follow directory searched link more ih =>
    intro links' hretrace
    obtain ⟨-, hmore⟩ := eq_ok_of_retraceFrom searched link hretrace
    cases links' with
    | zero => cases hmore
    | succ links' => exact ih hmore

/-- On the way to a directory, only directories and links are looked up. -/
theorem Resolves.retraceFrom_sameWays (hways : SameWays t t')
    (h : Resolves t links here parts arrival) :
    t.node? arrival.1 = some .directory → ∀ links' : Nat,
      t'.retraceFrom links' here parts = t.retraceFrom links' here parts := by
  have hfound : ∀ {l : Location} {n : Node}, t.node? l = some n → t'.node? l = some n →
      t'.lookUp l = t.lookUp l := by
    intro l n hn hn'
    rw [lookUp, lookUp, hn, hn']
  induction h with
  | arrive =>
    intro _ links'
    rw [retraceFrom_nil, retraceFrom_nil]
  | idle directory idle more ih =>
    intro hend links'
    rw [retraceFrom_idle idle, retraceFrom_idle idle, ih hend]
  | up directory dots more ih =>
    intro hend links'
    rw [dots, retraceFrom_dots, retraceFrom_dots, ih hend]
  | @enter links here part rest arrival n directory searched node notLink more ih =>
    intro hend links'
    -- What is entered is a directory, or else nothing could come behind it.
    obtain rfl : n = .directory := by
      cases more with
      | arrive => exact Option.some.inj (node.symm.trans hend)
      | idle directory | up directory | enter directory | follow directory =>
        exact Option.some.inj (node.symm.trans directory)
    rw [retraceFrom_searched searched, retraceFrom_searched searched,
      hfound node ((hways.directory _).2 node)]
    cases hlook : t.lookUp (here ++ [part]) with
    | error e => rfl
    | ok n =>
      obtain rfl := Option.some.inj ((lookUp_eq_ok_iff.1 hlook).2.symm.trans node)
      show t'.goOn here part rest links' .directory = t.goOn here part rest links' .directory
      rw [goOn_of_not_link notLink, goOn_of_not_link notLink, ih hend]
  | @follow links here part rest arrival target directory searched link more ih =>
    intro hend links'
    rw [retraceFrom_searched searched, retraceFrom_searched searched,
      hfound link ((hways.link _ _).2 link)]
    cases hlook : t.lookUp (here ++ [part]) with
    | error e => rfl
    | ok n =>
      obtain rfl := Option.some.inj ((lookUp_eq_ok_iff.1 hlook).2.symm.trans link)
      cases links' with
      | zero => rfl
      | succ links' => exact ih hend links'

/-! ### Places that are known -/

/-- A location can be looked up, and so can all places on the way to it from the root directory. -/
structure IsKnown (t : FileTree) (l : Location) : Prop where
  searched : ∀ name ∈ l, IsSearched name
  found : ∀ front more, l = front ++ more → front ≠ [] →
    ∃ n, t.lookUp front = .ok n ∧ ∀ target, n ≠ .link target

theorem isKnown_nil (t : FileTree) : IsKnown t [] := by
  refine ⟨fun name h => absurd h List.not_mem_nil, fun front more h hne => ?_⟩
  exact absurd (List.append_eq_nil_iff.1 h.symm).1 hne

theorem IsKnown.of_append {more : Location} (h : IsKnown t (l ++ more)) : IsKnown t l := by
  refine ⟨fun name hname => h.searched name (List.mem_append_left _ hname), ?_⟩
  rintro front rest rfl hne
  exact h.found front (rest ++ more) (List.append_assoc _ _ _) hne

theorem IsKnown.dropLast (h : IsKnown t l) : IsKnown t l.dropLast := by
  rcases List.eq_nil_or_concat' l with rfl | ⟨front, name, rfl⟩
  · exact h
  · rw [List.dropLast_concat]
    exact h.of_append

theorem IsKnown.concat (h : IsKnown t here) (hpart : IsSearched part)
    (hfound : t.lookUp (here ++ [part]) = .ok n) (hlink : ∀ target, n ≠ .link target) :
    IsKnown t (here ++ [part]) := by
  constructor
  · exact List.forall_mem_append.2 ⟨h.searched, List.forall_mem_singleton.2 hpart⟩
  · intro front more hsplit hne
    rcases List.eq_nil_or_concat' more with rfl | ⟨more, last, rfl⟩
    · rw [List.append_nil] at hsplit
      exact ⟨n, by rw [← hsplit, hfound], hlink⟩
    · rw [← List.append_assoc] at hsplit
      exact h.found front more (List.append_inj' hsplit rfl).1 hne

theorem IsKnown.start (h : IsKnown t here) (target : Path) : IsKnown t (start here target) := by
  rw [FileTree.start]
  split
  · exact isKnown_nil t
  · exact h

/-- What is gone along from a known place leads to known places. -/
theorem Resolves.isKnown (h : Resolves t links here parts arrival) :
    ∀ {links' : Nat}, IsKnown t here → t.retraceFrom links' here parts = .ok l → IsKnown t l := by
  induction h with
  | arrive =>
    intro links' hknown hretrace
    rw [retraceFrom_nil] at hretrace
    cases hretrace
    exact hknown
  | idle directory idle more ih =>
    intro links' hknown hretrace
    rw [retraceFrom_idle idle] at hretrace
    exact ih hknown hretrace
  | up directory dots more ih =>
    intro links' hknown hretrace
    rw [dots, retraceFrom_dots] at hretrace
    exact ih hknown.dropLast hretrace
  | enter directory searched node notLink more ih =>
    intro links' hknown hretrace
    obtain ⟨hfound, hmore⟩ := eq_ok_of_retraceFrom searched node hretrace
    rw [goOn_of_not_link notLink] at hmore
    exact ih (hknown.concat searched hfound notLink) hmore
  | follow directory searched link more ih =>
    intro links' hknown hretrace
    obtain ⟨-, hmore⟩ := eq_ok_of_retraceFrom searched link hretrace
    cases links' with
    | zero => cases hmore
    | succ links' => exact ih (hknown.start _) hmore

/-- A known place is found by its names, with idle parts between them or not. -/
theorem retraceFrom_of_isKnown {names : List Name} (hknown : IsKnown t (here ++ names))
    (hparts : parts.filterMap Path.component? = names.map .name) :
    t.retraceFrom links here parts = .ok (here ++ names) := by
  induction parts generalizing here names with
  | nil =>
    obtain rfl := List.map_eq_nil_iff.1 hparts.symm
    rw [retraceFrom_nil, List.append_nil]
  | cons part parts ih =>
    cases hpart : Path.component? part with
    | none =>
      rw [List.filterMap_cons_none hpart] at hparts
      rw [retraceFrom_idle (Path.component?_eq_none_iff.1 hpart)]
      exact ih hknown hparts
    | some c =>
      rw [List.filterMap_cons_some hpart] at hparts
      obtain ⟨name, names, rfl, rfl, hrest⟩ := List.map_eq_cons_iff.1 hparts.symm
      have hsearched : IsSearched name :=
        hknown.searched name (List.mem_append_right _ List.mem_cons_self)
      obtain rfl : part = name := by
        apply Path.component?_inj hpart
        simp [Path.component?_eq_some_iff, hsearched.1, hsearched.2.1]
      rw [List.append_cons] at hknown ⊢
      obtain ⟨n, hfound, hlink⟩ := hknown.found (here ++ [part]) names rfl (by simp)
      rw [retraceFrom_searched hsearched, hfound]
      show t.goOn here part parts links n = _
      rw [goOn_of_not_link hlink]
      exact ih hknown hrest.symm

/-! ### Canonical paths -/

theorem canonicalize_eq_ok_iff : t.canonicalize p = .ok canonical ↔ checkPath p = .ok () ∧
    ∃ l, t.retraceFrom maxLinks (start t.workingDirectory p) p.segments = .ok l ∧
      canonical = pathOf l := by
  rw [canonicalize]
  cases checkPath p with
  | error e => simp [bind, Except.bind]
  | ok u =>
    cases t.retraceFrom maxLinks (start t.workingDirectory p) p.segments with
    | error e => simp [bind, Except.bind]
    | ok l => simp [bind, Except.bind, pure, Except.pure, eq_comm]

/-- How a path to a directory is resolved, where it can be gone along, too. -/
theorem resolves_of_directoryAt? (h : t.directoryAt? p = some l) : ∃ left,
    Resolves t maxLinks (start t.workingDirectory p) p.segments (l, left) ∧
      t.node? l = some .directory := by
  obtain ⟨hlocate, hdirectory⟩ := directoryAt?_eq_some_iff.1 h
  obtain ⟨-, left, hresolve⟩ := locate_eq_ok_iff.1 hlocate
  exact ⟨left, resolve_eq_ok_iff.1 hresolve, hdirectory⟩

/-- **The canonical path of a directory is the path of its location.** -/
theorem eq_pathOf_of_canonicalize (hp : t.directoryAt? p = some l)
    (h : t.canonicalize p = .ok canonical) : canonical = pathOf l := by
  obtain ⟨left, hresolves, -⟩ := resolves_of_directoryAt? hp
  obtain ⟨-, l', hretrace, rfl⟩ := canonicalize_eq_ok_iff.1 h
  rw [hresolves.retraceFrom_eq hretrace]

/-- The components of a canonical path are the names of the location that it stands for. -/
theorem components_canonicalize (hp : t.directoryAt? p = some l)
    (h : t.canonicalize p = .ok canonical) : canonical.components = .root :: l.map .name := by
  rw [eq_pathOf_of_canonicalize hp h,
    components_pathOf (isNamed_of_node? (directoryAt?_eq_some_iff.1 hp).2)]

/-- **Canonical paths tell directories apart.** -/
theorem canonicalize_eq_iff (hp : t.directoryAt? p = some l) (hq : t.directoryAt? q = some l')
    (h : t.canonicalize p = .ok canonical) (h' : t.canonicalize q = .ok canonical') :
    canonical = canonical' ↔ l = l' := by
  rw [eq_pathOf_of_canonicalize hp h, eq_pathOf_of_canonicalize hq h']
  constructor
  · exact pathOf_inj (isNamed_of_node? (directoryAt?_eq_some_iff.1 hp).2)
      (isNamed_of_node? (directoryAt?_eq_some_iff.1 hq).2)
  · exact congrArg _

/-- The canonical path of a directory depends on directories and links alone. -/
theorem canonicalize_sameWays (hways : SameWays t t') (hp : t.directoryAt? p = some l) :
    t'.canonicalize p = t.canonicalize p := by
  obtain ⟨left, hresolves, hdirectory⟩ := resolves_of_directoryAt? hp
  rw [canonicalize, canonicalize, hways.workingDirectory,
    hresolves.retraceFrom_sameWays hways hdirectory]

/-- A directory with a canonical path was looked up on all the way to it from the root directory, if
the path to it starts there. -/
theorem isKnown_of_canonicalize (hp : t.directoryAt? p = some l)
    (h : t.canonicalize p = .ok canonical) (hstart : start t.workingDirectory p = []) :
    IsKnown t l := by
  obtain ⟨left, hresolves, -⟩ := resolves_of_directoryAt? hp
  obtain ⟨-, l', hretrace, -⟩ := canonicalize_eq_ok_iff.1 h
  rw [hstart] at hresolves hretrace
  obtain rfl : l' = l := hresolves.retraceFrom_eq hretrace
  exact hresolves.isKnown (isKnown_nil t) hretrace

/-- An absolute path has a canonical one if its components are those of a canonical path that is had
from an absolute one. -/
theorem exists_canonicalize (hp : t.directoryAt? p = some l) (h : t.canonicalize p = .ok canonical)
    (habsolute : p.isAbsolute = true) (hq : checkPath q = .ok ())
    (hcomponents : q.components = canonical.components) :
    ∃ canonical', t.canonicalize q = .ok canonical' := by
  have hstart : ∀ {r : Path}, r.isAbsolute = true → start t.workingDirectory r = [] := by
    intro r hr
    rw [start, if_pos hr]
  have hknown := isKnown_of_canonicalize hp h (hstart habsolute)
  have hnamed := isNamed_of_node? (directoryAt?_eq_some_iff.1 hp).2
  rw [components_canonicalize hp h, ← components_pathOf hnamed] at hcomponents
  have habsolute' : q.isAbsolute = true := by
    rw [← Path.root_mem_components_iff, hcomponents, components_pathOf hnamed]
    exact List.mem_cons_self
  have hsteps : q.steps = l.map .name :=
    (Path.steps_eq_of_components_eq hcomponents).trans (steps_pathOf hnamed)
  refine ⟨pathOf l, canonicalize_eq_ok_iff.2 ⟨hq, l, ?_, rfl⟩⟩
  rw [hstart habsolute']
  exact retraceFrom_of_isKnown hknown hsteps

end EnvTemplates.FileTree
