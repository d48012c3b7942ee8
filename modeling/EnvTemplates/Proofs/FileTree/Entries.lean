import EnvTemplates.Proofs.FileTree.Resolution
import EnvTemplates.Proofs.Path.Components

/-!
# Where the entries of a directory are

A path is resolved piece by piece: what a longer path leads to is where the rest of it leads from
the place that the first parts lead to (`resolves_append_iff`). A name that is joined to the path of
a directory is therefore looked for among the entries of that directory, however the path of the
directory was spelled (`resolves_join_name_iff`).
-/

namespace EnvTemplates

namespace Path

variable {p : Path} {name : Bytes}

theorem isAbsolute_join_name (h : IsName name) : (p.join ⟨name⟩).isAbsolute = p.isAbsolute := by
  rw [isAbsolute_eq_decide, isAbsolute_eq_decide, front_join_name h]

/-- A joined name is the last part of a path, in the place of the empty part behind a slash. -/
theorem segments_join_name (h : IsName name) (hne : p.bytes ≠ []) :
    (p.join ⟨name⟩).segments = p.segments ++ [name] ∨
      ∃ parts, p.segments = parts ++ [[]] ∧ (p.join ⟨name⟩).segments = parts ++ [name] := by
  rcases bytes_join h.2.2 (p := p) with ⟨hempty, -⟩ | ⟨x, hx, hjoin⟩ | ⟨-, hjoin⟩
  · exact absurd hempty hne
  · refine Or.inr ⟨fields (· == slash) x, ?_, ?_⟩
    · rw [segments, hx, fields_append_slash]
      rfl
    · rw [segments, hjoin, fields_append_slash, h.fields_eq]
  · left
    rw [segments, hjoin, fields_append_slash, h.fields_eq, segments]

end Path

namespace FileTree

variable {t : FileTree} {links left : Nat} {here directory l : Location} {parts more : List Bytes}
  {arrival : Arrival} {p : Path} {name : Name}

/-! ### Piece by piece -/

/-- A path leads to one place at most. -/
theorem Resolves.functional {arrival' : Arrival} (h : Resolves t links here parts arrival)
    (h' : Resolves t links here parts arrival') : arrival = arrival' := by
  rw [← resolve_eq_ok_iff] at h h'
  exact Except.ok.inj (h.symm.trans h')

theorem Resolves.append {mid : Arrival} (h : Resolves t links here parts mid)
    (hmore : Resolves t mid.2 mid.1 more arrival) :
    Resolves t links here (parts ++ more) arrival := by
  induction h with
  | arrive => exact hmore
  | idle directory idle _ ih => exact .idle directory idle (ih hmore)
  | up directory dots _ ih => exact .up directory dots (ih hmore)
  | enter directory searched node notLink _ ih =>
    exact .enter directory searched node notLink (ih hmore)
  | follow directory searched link _ ih =>
    -- The target of the link is put in front of all that is left.
    apply Resolves.follow directory searched link
    have hall := ih hmore
    rw [List.append_assoc] at hall
    exact hall

theorem Resolves.split (h : Resolves t links here (parts ++ more) arrival) :
    ∃ mid : Arrival, Resolves t links here parts mid ∧ Resolves t mid.2 mid.1 more arrival := by
  generalize hall : parts ++ more = all at h
  induction h generalizing parts with
  | arrive =>
    obtain ⟨rfl, rfl⟩ := List.append_eq_nil_iff.1 hall
    exact ⟨_, .arrive, .arrive⟩
  | @idle links here part rest arrival directory idle hrest ih =>
    cases parts with
    | nil =>
      obtain rfl : more = part :: rest := hall
      exact ⟨(here, links), .arrive, .idle directory idle hrest⟩
    | cons first parts =>
      obtain ⟨rfl, hparts⟩ := List.cons.inj hall
      obtain ⟨mid, hmid, hend⟩ := ih hparts
      exact ⟨mid, .idle directory idle hmid, hend⟩
  | @up links here part rest arrival directory dots hrest ih =>
    cases parts with
    | nil =>
      obtain rfl : more = part :: rest := hall
      exact ⟨(here, links), .arrive, .up directory dots hrest⟩
    | cons first parts =>
      obtain ⟨rfl, hparts⟩ := List.cons.inj hall
      obtain ⟨mid, hmid, hend⟩ := ih hparts
      exact ⟨mid, .up directory dots hmid, hend⟩
  | @enter links here part rest arrival n directory searched node notLink hrest ih =>
    cases parts with
    | nil =>
      obtain rfl : more = part :: rest := hall
      exact ⟨(here, links), .arrive, .enter directory searched node notLink hrest⟩
    | cons first parts =>
      obtain ⟨rfl, hparts⟩ := List.cons.inj hall
      obtain ⟨mid, hmid, hend⟩ := ih hparts
      exact ⟨mid, .enter directory searched node notLink hmid, hend⟩
  | @follow links here part rest arrival target directory searched link hrest ih =>
    cases parts with
    | nil =>
      obtain rfl : more = part :: rest := hall
      exact ⟨(here, links + 1), .arrive, .follow directory searched link hrest⟩
    | cons first parts =>
      obtain ⟨rfl, rfl⟩ := List.cons.inj hall
      obtain ⟨mid, hmid, hend⟩ := ih (List.append_assoc _ _ _)
      exact ⟨mid, .follow directory searched link hmid, hend⟩

/-- **A path is resolved piece by piece.** -/
theorem resolves_append_iff : Resolves t links here (parts ++ more) arrival ↔
    ∃ mid : Arrival, Resolves t links here parts mid ∧ Resolves t mid.2 mid.1 more arrival :=
  ⟨Resolves.split, fun ⟨_, hmid, hmore⟩ => hmid.append hmore⟩

/-- A slash at the end of a path leads nowhere else. -/
theorem resolves_slash_iff : Resolves t links here [[]] arrival ↔
    t.node? here = some .directory ∧ arrival = (here, links) := by
  constructor
  · intro h
    cases h with
    | idle directory idle more =>
      cases more
      exact ⟨directory, rfl⟩
    | up directory dots more => cases dots
    | enter directory searched node notLink more => exact absurd rfl searched.ne_nil
    | follow directory searched link more => exact absurd rfl searched.ne_nil
  · rintro ⟨hdirectory, rfl⟩
    exact .idle hdirectory rfl .arrive

/-! ### Spellings -/

/-- Idle parts say nothing but that there is a directory. -/
theorem Resolves.idles {idles : List Bytes} (hdirectory : t.node? here = some .directory)
    (hidles : ∀ part ∈ idles, Path.component? part = none)
    (h : Resolves t links here parts arrival) : Resolves t links here (idles ++ parts) arrival := by
  induction idles with
  | nil => exact h
  | cons part idles ih =>
    obtain ⟨hpart, hidles⟩ := List.forall_mem_cons.1 hidles
    exact .idle hdirectory (Path.component?_eq_none_iff.1 hpart) (ih hidles)

/-- On the way to a directory, only the components count that the parts stand for. -/
theorem Resolves.respell (h : Resolves t links here parts arrival) :
    ∀ {parts' : List Bytes}, t.node? arrival.1 = some .directory →
      parts'.filterMap Path.component? = parts.filterMap Path.component? →
      Resolves t links here parts' arrival := by
  -- The next part that says something is the same in both, with idle ones before it.
  have hnext : ∀ {part : Bytes} {rest parts' : List Bytes} {c : Component},
      Path.component? part = some c →
      parts'.filterMap Path.component? = (part :: rest).filterMap Path.component? →
      ∃ idles rest', parts' = idles ++ part :: rest' ∧
        (∀ p ∈ idles, Path.component? p = none) ∧
        rest'.filterMap Path.component? = rest.filterMap Path.component? := by
    intro part rest parts' c hpart heq
    rw [List.filterMap_cons_some hpart] at heq
    obtain ⟨idles, other, rest', rfl, hidles, hother, hrest⟩ := List.filterMap_eq_cons_iff.1 heq
    rw [Path.component?_inj hpart hother]
    exact ⟨idles, rest', rfl, hidles, hrest⟩
  have hname : ∀ {part : Bytes}, IsSearched part → Path.component? part = some (.name part) := by
    intro part hpart
    simp [Path.component?_eq_some_iff, hpart.1, hpart.2.1]
  induction h with
  | arrive =>
    intro parts' hdirectory heq
    have hidles := List.filterMap_eq_nil_iff.1 heq
    rw [← List.append_nil parts']
    exact Resolves.arrive.idles hdirectory hidles
  | idle directory idle more ih =>
    intro parts' hdirectory heq
    rw [List.filterMap_cons_none (Path.component?_eq_none_iff.2 idle)] at heq
    exact ih hdirectory heq
  | up directory dots more ih =>
    intro parts' hdirectory heq
    subst dots
    obtain ⟨idles, rest', rfl, hidles, hrest⟩ := hnext Path.component?_dots heq
    exact (Resolves.up directory rfl (ih hdirectory hrest)).idles directory hidles
  | enter directory searched node notLink more ih =>
    intro parts' hdirectory heq
    obtain ⟨idles, rest', rfl, hidles, hrest⟩ := hnext (hname searched) heq
    exact (Resolves.enter directory searched node notLink (ih hdirectory hrest)).idles directory
      hidles
  | @follow links here part rest arrival target directory searched link more ih =>
    intro parts' hdirectory heq
    obtain ⟨idles, rest', rfl, hidles, hrest⟩ := hnext (hname searched) heq
    have hboth : Resolves t links (start here target) (target.segments ++ rest') arrival :=
      ih hdirectory (by rw [List.filterMap_append, List.filterMap_append, hrest])
    exact (Resolves.follow directory searched link hboth).idles directory hidles

/-! ### Names joined to a path -/

theorem checkPath_eq_ok_iff : checkPath p = .ok () ↔
    0 ∉ p.bytes ∧ p.bytes ≠ [] ∧ p.bytes.length ≤ maxPath := by
  rw [checkPath]
  by_cases hzero : 0 ∈ p.bytes
  · simp [hzero]
  · by_cases hempty : p.bytes = []
    · simp [hempty]
    · by_cases hlong : p.bytes.length > maxPath
      · have hnot : ¬ p.bytes.length ≤ maxPath := Nat.not_le_of_gt hlong
        simp [hzero, hempty, hlong, hnot]
      · simp [hzero, hempty, hlong, Nat.le_of_not_lt hlong]

theorem start_join_name (h : Path.IsName name) (here : Location) :
    start here (p.join ⟨name⟩) = start here p := by
  rw [start, start, Path.isAbsolute_join_name h]

/-- A name that is joined to the path of a directory is looked for in the directory. -/
theorem resolves_join_name_iff (hname : Path.IsName name) (hne : p.bytes ≠ [])
    (hp : Resolves t links here p.segments (directory, left)) :
    Resolves t links here (p.join ⟨name⟩).segments arrival ↔
      Resolves t left directory [name] arrival := by
  -- With a slash at its end, the path leads to the same place without it.
  obtain ⟨parts, hjoin, hparts⟩ : ∃ parts, (p.join ⟨name⟩).segments = parts ++ [name] ∧
      Resolves t links here parts (directory, left) := by
    rcases Path.segments_join_name hname hne with hjoin | ⟨parts, hsegments, hjoin⟩
    · exact ⟨p.segments, hjoin, hp⟩
    · rw [hsegments] at hp
      obtain ⟨mid, hmid, hslash⟩ := resolves_append_iff.1 hp
      obtain ⟨-, heq⟩ := resolves_slash_iff.1 hslash
      rw [show mid = (directory, left) from heq.symm] at hmid
      exact ⟨parts, hjoin, hmid⟩
  rw [hjoin, resolves_append_iff]
  constructor
  · rintro ⟨mid, hmid, hend⟩
    rw [hmid.functional hparts] at hend
    exact hend
  · intro hend
    exact ⟨_, hparts, hend⟩

/-- The entry of a directory by its path, if it is no link. -/
theorem locate_join_name (hname : Path.IsName name) (hp : t.locate p = .ok directory)
    (hdirectory : t.node? directory = some .directory) {n : Node}
    (hnode : t.node? (directory ++ [name]) = some n) (hlink : ∀ target, n ≠ .link target)
    (hlength : name.length ≤ maxName) (hcheck : checkPath (p.join ⟨name⟩) = .ok ()) :
    t.locate (p.join ⟨name⟩) = .ok (directory ++ [name]) := by
  obtain ⟨hpath, left, hresolve⟩ := locate_eq_ok_iff.1 hp
  refine locate_eq_ok_iff.2 ⟨hcheck, left, ?_⟩
  rw [start_join_name hname, resolve_eq_ok_iff,
    resolves_join_name_iff hname (checkPath_eq_ok_iff.1 hpath).2.1
      (resolve_eq_ok_iff.1 hresolve)]
  exact .enter hdirectory ⟨hname.1, hname.2.1, hlength⟩ hnode hlink .arrive

/-- An entry that is no link is where its name says. -/
theorem eq_of_locate_join_name (hname : Path.IsName name) (hp : t.locate p = .ok directory)
    (hlink : ∀ target, t.node? (directory ++ [name]) ≠ some (.link target))
    (h : t.locate (p.join ⟨name⟩) = .ok l) : l = directory ++ [name] := by
  obtain ⟨hpath, left, hresolve⟩ := locate_eq_ok_iff.1 hp
  obtain ⟨-, left', hresolve'⟩ := locate_eq_ok_iff.1 h
  rw [start_join_name hname, resolve_eq_ok_iff,
    resolves_join_name_iff hname (checkPath_eq_ok_iff.1 hpath).2.1
      (resolve_eq_ok_iff.1 hresolve)] at hresolve'
  cases hresolve' with
  | idle directory idle more =>
    rw [hname.1] at idle
    cases idle
  | up directory dots more => exact absurd dots hname.2.1
  | enter directory searched node notLink more =>
    cases more
    rfl
  | follow directory searched link more => exact absurd link (hlink _)

/-! ### Directories and files -/

theorem directoryAt?_eq_some_iff : t.directoryAt? p = some l ↔
    t.locate p = .ok l ∧ t.node? l = some .directory := by
  rw [directoryAt?]
  cases t.locate p with
  | error e => simp
  | ok l' =>
    simp only [Except.ok.injEq]
    split
    · next h =>
      constructor
      · rintro heq
        cases heq
        exact ⟨rfl, h⟩
      · rintro ⟨rfl, -⟩
        rfl
    · next h =>
      constructor
      · exact nofun
      · rintro ⟨rfl, hl⟩
        exact absurd hl h

/-- What leads to a directory is a path that can be looked up. -/
theorem checkPath_of_directoryAt? (h : t.directoryAt? p = some l) :
    p.bytes ≠ [] ∧ p.bytes.length ≤ maxPath := by
  obtain ⟨hlocate, -⟩ := directoryAt?_eq_some_iff.1 h
  exact (checkPath_eq_ok_iff.1 (locate_eq_ok_iff.1 hlocate).1).2

theorem read_eq_ok_iff {contents : Bytes} : t.read p = .ok contents ↔
    ∃ l, t.locate p = .ok l ∧ t.node? l = some (.file contents) := by
  rw [read]
  cases t.locate p with
  | error e => simp [bind, Except.bind]
  | ok l =>
    cases hnode : t.node? l with
    | none => simp [bind, Except.bind, hnode]
    | some n => cases n <;> simp [bind, Except.bind, hnode]

/-- A text is read from a file that may be read and holds UTF-8. -/
theorem readText_eq_ok_iff {text : Text} : t.readText p = .ok text ↔
    ∃ l contents, t.locate p = .ok l ∧ t.refusal? .read l = none ∧
      t.node? l = some (.file contents) ∧ Utf8.decode? contents = some text := by
  have hread : t.readText p = .ok text ↔ ∃ l, t.locate p = .ok l ∧ t.refusal? .read l = none ∧
      ∃ contents, t.read p = .ok contents ∧ Utf8.decode? contents = some text := by
    rw [readText]
    cases t.locate p with
    | error e => simp [bind, Except.bind]
    | ok l =>
      cases hpermit : t.refusal? .read l with
      | some cause => simp [bind, Except.bind, permit, hpermit]
      | none =>
        cases t.read p with
        | error e => simp [bind, Except.bind, permit, hpermit]
        | ok contents =>
          cases hdecode : Utf8.decode? contents <;>
            simp [bind, Except.bind, permit, hpermit, hdecode]
  rw [hread]
  constructor
  · rintro ⟨l, hlocate, hpermit, contents, hcontents, hdecode⟩
    obtain ⟨l', hlocate', hnode⟩ := read_eq_ok_iff.1 hcontents
    obtain rfl := Except.ok.inj (hlocate'.symm.trans hlocate)
    exact ⟨l', contents, hlocate, hpermit, hnode, hdecode⟩
  · rintro ⟨l, contents, hlocate, hpermit, hnode, hdecode⟩
    exact ⟨l, hlocate, hpermit, contents, read_eq_ok_iff.2 ⟨l, hlocate, hnode⟩, hdecode⟩

theorem isFile_iff : t.isFile p = true ↔ ∃ contents, t.read p = .ok contents := by
  simp only [read_eq_ok_iff]
  rw [isFile, nodeAt?]
  cases t.locate p with
  | error e => simp
  | ok l =>
    cases hnode : t.node? l with
    | none => simp [hnode]
    | some n => cases n <;> simp [hnode]

end FileTree

end EnvTemplates
