import EnvTemplates.Proofs.FileTree.Nodes

/-!
# What the resolution of paths depends on

`Resolves` tells the successful resolutions of paths step by step (`resolve_eq_ok_iff`). On its way,
a path only ever passes directories and links. Two trees that have the same ones (`SameWays`)
therefore resolve a path to the same place, if there is anything at its end (`locate_sameWays`).
-/

namespace EnvTemplates.FileTree

/-- A part that is looked for among the entries of a directory. -/
def IsSearched (part : Bytes) : Prop :=
  Path.isIdle part = false ∧ part ≠ Path.dots ∧ part.length ≤ maxName

theorem IsSearched.ne_nil {part : Bytes} (h : IsSearched part) : part ≠ [] := by
  rintro rfl
  exact absurd h.1 (by decide)

/-- The parts of a path lead from a location to another one, with the links that are left. -/
inductive Resolves (t : FileTree) : (links : Nat) → Location → List Bytes → Arrival → Prop where
  | arrive {links here} : Resolves t links here [] (here, links)
  | idle {links here part rest arrival} (directory : t.node? here = some .directory)
      (idle : Path.isIdle part = true) (more : Resolves t links here rest arrival) :
      Resolves t links here (part :: rest) arrival
  | up {links here part rest arrival} (directory : t.node? here = some .directory)
      (dots : part = Path.dots) (more : Resolves t links here.dropLast rest arrival) :
      Resolves t links here (part :: rest) arrival
  | enter {links here part rest arrival n} (directory : t.node? here = some .directory)
      (searched : IsSearched part)
      (node : t.node? (here ++ [part]) = some n) (notLink : ∀ target, n ≠ .link target)
      (more : Resolves t links (here ++ [part]) rest arrival) :
      Resolves t links here (part :: rest) arrival
  | follow {links here part rest arrival target} (directory : t.node? here = some .directory)
      (searched : IsSearched part)
      (link : t.node? (here ++ [part]) = some (.link target))
      (more : Resolves t links (start here target) (target.segments ++ rest) arrival) :
      Resolves t (links + 1) here (part :: rest) arrival

variable {t t' t'' : FileTree} {links : Nat} {here : Location} {parts : List Bytes}
  {arrival : Arrival}

section Descend

variable {follow : Location → List Bytes → Except FileError Arrival}

theorem descend_cons_eq_ok_iff {part : Bytes} {rest : List Bytes} :
    descend t links follow here (part :: rest) = .ok arrival ↔
      t.node? here = some .directory ∧
        ((Path.isIdle part = true ∧ descend t links follow here rest = .ok arrival) ∨
        (part = Path.dots ∧ descend t links follow here.dropLast rest = .ok arrival) ∨
        (IsSearched part ∧
          ((∃ n, t.node? (here ++ [part]) = some n ∧ (∀ target, n ≠ .link target) ∧
            descend t links follow (here ++ [part]) rest = .ok arrival) ∨
          ∃ target, t.node? (here ++ [part]) = some (.link target) ∧
            follow (start here target) (target.segments ++ rest) = .ok arrival))) := by
  have hdots : Path.isIdle Path.dots = false := by decide
  rw [descend, IsSearched]
  by_cases hdirectory : t.node? here = some .directory
  · rw [if_neg (not_not.2 hdirectory)]
    simp only [hdirectory, true_and]
    cases hidle : Path.isIdle part with
    | true =>
      have hne : part ≠ Path.dots := by
        rintro rfl
        rw [hdots] at hidle
        cases hidle
      simp [hne]
    | false =>
      by_cases hpart : part = Path.dots
      · simp [hpart]
      · by_cases hlong : part.length > maxName
        · have hnot : ¬ part.length ≤ maxName := Nat.not_le_of_gt hlong
          simp [hpart, hlong, hnot]
        · have hle : part.length ≤ maxName := Nat.le_of_not_lt hlong
          simp only [Bool.false_eq_true, if_false, hpart, hlong, false_and, false_or, true_and,
            ne_eq, not_false_eq_true, hle]
          cases hnode : t.node? (here ++ [part]) with
          | none => simp
          | some n => cases n <;> simp
  · rw [if_pos hdirectory]
    simp [hdirectory]

theorem descend_eq_ok_iff
    (hfollow : ∀ here parts, follow here parts = .ok arrival ↔
      0 < links ∧ Resolves t (links - 1) here parts arrival) :
    ∀ (parts : List Bytes) (here : Location),
      descend t links follow here parts = .ok arrival ↔ Resolves t links here parts arrival := by
  intro parts
  induction parts with
  | nil =>
    intro here
    rw [descend, Except.ok.injEq]
    constructor
    · rintro rfl
      exact .arrive
    · intro h
      cases h
      rfl
  | cons part rest ih =>
    intro here
    simp only [descend_cons_eq_ok_iff, ih, hfollow]
    constructor
    · rintro ⟨hdirectory, ⟨hidle, hmore⟩ | ⟨hdots, hmore⟩ |
        ⟨hnamed, ⟨n, hnode, hlink, hmore⟩ | ⟨target, hlink, hpos, hmore⟩⟩⟩
      · exact .idle hdirectory hidle hmore
      · exact .up hdirectory hdots hmore
      · exact .enter hdirectory hnamed hnode hlink hmore
      · -- `follow` takes one of the links that are left.
        obtain ⟨k, rfl⟩ := Nat.exists_eq_succ_of_ne_zero (Nat.ne_of_gt hpos)
        exact .follow hdirectory hnamed hlink hmore
    · intro h
      cases h with
      | idle directory idle more => exact ⟨directory, Or.inl ⟨idle, more⟩⟩
      | up directory dots more => exact ⟨directory, Or.inr (Or.inl ⟨dots, more⟩)⟩
      | enter directory searched node notLink more =>
        exact ⟨directory, Or.inr (Or.inr ⟨searched, Or.inl ⟨_, node, notLink, more⟩⟩)⟩
      | follow directory searched link more =>
        exact ⟨directory, Or.inr (Or.inr ⟨searched, Or.inr ⟨_, link, Nat.succ_pos _, more⟩⟩)⟩

end Descend

theorem resolve_eq_ok_iff : ∀ {links : Nat} {here : Location} {parts : List Bytes},
    t.resolve links here parts = .ok arrival ↔ Resolves t links here parts arrival := by
  -- Within a number of links the induction is on the parts; each link takes it to a smaller number.
  intro links
  induction links with
  | zero =>
    intro here parts
    exact descend_eq_ok_iff (fun _ _ => by simp) parts here
  | succ links ih =>
    intro here parts
    exact descend_eq_ok_iff (fun _ _ => by simp [ih]) parts here

/-- A path that ends with a slash leads to a directory. -/
theorem Resolves.directory_of_slash (h : Resolves t links here parts arrival) :
    ∀ front, parts = front ++ [[]] → t.node? arrival.1 = some .directory := by
  induction h with
  | arrive => exact fun front heq => absurd heq (by simp)
  | idle directory idle more ih =>
    intro front heq
    cases front with
    | nil =>
      obtain ⟨-, rfl⟩ := List.cons.inj heq
      cases more
      exact directory
    | cons first front => exact ih front (List.cons.inj heq).2
  | up directory dots more ih =>
    intro front heq
    cases front with
    | nil =>
      rw [(List.cons.inj heq).1] at dots
      cases dots
    | cons first front => exact ih front (List.cons.inj heq).2
  | enter directory searched node notLink more ih =>
    intro front heq
    cases front with
    | nil => exact absurd (List.cons.inj heq).1 searched.ne_nil
    | cons first front => exact ih front (List.cons.inj heq).2
  | @follow links here part rest arrival target directory searched link more ih =>
    intro front heq
    cases front with
    | nil => exact absurd (List.cons.inj heq).1 searched.ne_nil
    | cons first front =>
      -- The slash stays at the end when a link is put in the place of its name.
      refine ih (target.segments ++ front) ?_
      rw [(List.cons.inj heq).2, List.append_assoc]
      rfl

/-! ### Trees with the same ways -/

/-- Two trees have the same directories and the same links. -/
structure SameWays (t t' : FileTree) : Prop where
  directory : ∀ l, t'.node? l = some .directory ↔ t.node? l = some .directory
  link : ∀ l target, t'.node? l = some (.link target) ↔ t.node? l = some (.link target)
  workingDirectory : t'.workingDirectory = t.workingDirectory

theorem SameWays.refl (t : FileTree) : SameWays t t :=
  ⟨fun _ => Iff.rfl, fun _ _ => Iff.rfl, rfl⟩

theorem SameWays.symm (h : SameWays t t') : SameWays t' t :=
  ⟨fun l => (h.directory l).symm, fun l target => (h.link l target).symm, h.workingDirectory.symm⟩

theorem SameWays.trans (h : SameWays t t') (h' : SameWays t' t'') : SameWays t t'' :=
  ⟨fun l => (h'.directory l).trans (h.directory l),
    fun l target => (h'.link l target).trans (h.link l target),
    h'.workingDirectory.trans h.workingDirectory⟩

/-- What stands at a location is a regular file, if anything does. -/
def IsFileIfAny (t : FileTree) (l : Location) : Prop :=
  ∀ n, t.node? l = some n → ∃ contents, n = .file contents

/-- With the same directories and links, there is a regular file, if anything, in the same
places. -/
theorem IsFileIfAny.of_sameWays {l : Location} (h : t.IsFileIfAny l) (hways : SameWays t t') :
    t'.IsFileIfAny l := by
  intro n hn
  cases n with
  | file contents => exact ⟨contents, rfl⟩
  | directory =>
    obtain ⟨contents, heq⟩ := h _ ((hways.directory l).1 hn)
    cases heq
  | link target =>
    obtain ⟨contents, heq⟩ := h _ ((hways.link l target).1 hn)
    cases heq

/-- A resolution starts where something stands: at its end, or at a directory on the way. -/
theorem Resolves.isSome_here (hways : SameWays t t') (hsome : (t'.node? arrival.1).isSome)
    (h : Resolves t links here parts arrival) : (t'.node? here).isSome := by
  cases h with
  | arrive => exact hsome
  | idle directory | up directory | enter directory | follow directory =>
    rw [(hways.directory here).2 directory]
    rfl

theorem Resolves.sameWays (hways : SameWays t t') (hsome : (t'.node? arrival.1).isSome)
    (h : Resolves t links here parts arrival) : Resolves t' links here parts arrival := by
  induction h with
  | arrive => exact .arrive
  | idle directory idle more ih =>
    exact .idle ((hways.directory _).2 directory) idle (ih hsome)
  | up directory dots more ih => exact .up ((hways.directory _).2 directory) dots (ih hsome)
  | @enter links here part rest arrival n directory searched node notLink more ih =>
    -- What stands there may be another file, but it is no link.
    obtain ⟨n', hn'⟩ := Option.isSome_iff_exists.1 (more.isSome_here hways hsome)
    have hlink : ∀ target, n' ≠ .link target := by
      rintro target rfl
      rw [hways.link, node, Option.some.injEq] at hn'
      exact notLink target hn'
    exact .enter ((hways.directory _).2 directory) searched hn' hlink (ih hsome)
  | follow directory searched link more ih =>
    exact .follow ((hways.directory _).2 directory) searched ((hways.link _ _).2 link) (ih hsome)

theorem locate_eq_ok_iff {p : Path} {l : Location} : t.locate p = .ok l ↔
    checkPath p = .ok () ∧ ∃ left,
      t.resolve maxLinks (start t.workingDirectory p) p.segments = .ok (l, left) := by
  rw [locate]
  cases checkPath p with
  | error e => simp [bind, Except.bind]
  | ok u =>
    cases t.resolve maxLinks (start t.workingDirectory p) p.segments with
    | error e => simp [bind, Except.bind]
    | ok arrival => simp [bind, Except.bind, pure, Except.pure, Prod.ext_iff]

/-- A path leads to what stands in both trees in the one if and only if it does in the other. -/
theorem locate_sameWays (hways : SameWays t t') {p : Path} {l : Location}
    (hsome : (t'.node? l).isSome) (h : t.locate p = .ok l) : t'.locate p = .ok l := by
  obtain ⟨hcheck, left, hresolve⟩ := locate_eq_ok_iff.1 h
  refine locate_eq_ok_iff.2 ⟨hcheck, left, ?_⟩
  rw [hways.workingDirectory]
  exact resolve_eq_ok_iff.2 ((resolve_eq_ok_iff.1 hresolve).sameWays hways hsome)

end EnvTemplates.FileTree
