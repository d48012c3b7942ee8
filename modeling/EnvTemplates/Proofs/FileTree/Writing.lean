import Mathlib.Data.List.Induction
import EnvTemplates.Proofs.FileTree.Resolution
import EnvTemplates.Proofs.Path.Join

/-!
# Where a write goes and what it changes

A write goes to the location that a name stands for in some directory (`land_eq_ok_iff`). What
stands there is a file or nothing (`isOpen_of_destination`), so that a write leaves all directories
and links as they are (`sameWays_write`), and writes that come later go where they would have gone
without it (`destination_sameWays`). A write that fails breaks off before it has changed anything,
or in the middle of the file that it goes to (`BreaksOff`).
-/

namespace EnvTemplates.FileTree

variable {t t' : FileTree} {links : Nat} {here : Location} {parts : List Bytes}

section Land

variable {follow : Nat → Location → List Bytes → Except FileError Location} {l : Location}

/-- A write to a name goes to the file that it names or creates, or on to where a link leads. -/
theorem landAt_eq_ok_iff {name : Bytes} (hname : name ≠ []) {directory : Location} {left : Nat} :
    t.landAt follow name (directory, left) = .ok l ↔ IsSearched name ∧
      ((l = directory ++ [name] ∧ ∀ n, t.node? l = some n → ∃ contents, n = .file contents) ∨
        ∃ target, t.node? (directory ++ [name]) = some (.link target) ∧
          follow left (start directory target) target.segments = .ok l) := by
  have hidle : Path.isIdle name = false ↔ name ≠ Path.dot := by
    simp [Path.isIdle, hname]
  rw [landAt, IsSearched, hidle]
  constructor
  · -- the tests of `landAt` in their order
    intro h
    split at h
    · cases h
    · next hdots =>
      rw [not_or] at hdots
      split at h
      · cases h
      · next hlong =>
        refine ⟨⟨hdots.1, hdots.2, Nat.le_of_not_lt hlong⟩, ?_⟩
        split at h
        · cases h
        · next target hlink => exact Or.inr ⟨target, hlink, h⟩
        · next hdirectory hlink =>
          cases h
          refine Or.inl ⟨rfl, fun n hn => ?_⟩
          cases n with
          | file contents => exact ⟨contents, rfl⟩
          | directory => exact absurd hn hdirectory
          | link target => exact absurd hn (hlink target)
  · rintro ⟨⟨hdot, hdots, hlong⟩, hend⟩
    rw [if_neg (not_or.2 ⟨hdot, hdots⟩), if_neg (Nat.not_lt.2 hlong)]
    rcases hend with ⟨rfl, hfile⟩ | ⟨target, hlink, hfollow⟩
    · cases hnode : t.node? (directory ++ [name]) with
      | none => rfl
      | some n =>
        obtain ⟨contents, rfl⟩ := hfile n hnode
        rfl
    · simp only [hlink]
      exact hfollow

/-- A path that ends with a slash names no file. -/
theorem land_slash (front : List Bytes) : t.land links follow here (front ++ [[]]) ≠ .ok l := by
  have hreverse : (front ++ [[]]).reverse.dropWhile (· = []) =
      front.reverse.dropWhile (· = []) := by
    rw [List.reverse_append, List.reverse_singleton, List.singleton_append,
      List.dropWhile_cons_of_pos (by simp)]
  have hlength : (front.reverse.dropWhile (· = [])).reverse.length < (front ++ [[]]).length := by
    have hle : (front.reverse.dropWhile (· = [])).length ≤ front.reverse.length :=
      (List.dropWhile_sublist _).length_le
    rw [List.length_reverse] at hle ⊢
    rw [List.length_append, List.length_singleton]
    omega
  -- The slash is seen by the length only, after the directory has been resolved.
  rw [land, hreverse]
  simp only [hlength, if_true]
  cases (front.reverse.dropWhile (· = [])).reverse.getLast? with
  | none => exact nofun
  | some name =>
    simp only
    cases t.resolve links here _ with
    | error e => exact nofun
    | ok arrival => exact nofun

theorem land_concat {name : Bytes} (h : name ≠ []) (front : List Bytes) :
    t.land links follow here (front ++ [name]) =
      (t.resolve links here (front ++ [[]])).bind (t.landAt follow name) := by
  have hnamed : ((front ++ [name]).reverse.dropWhile (· = [])).reverse = front ++ [name] := by
    rw [List.reverse_append, List.reverse_singleton, List.singleton_append,
      List.dropWhile_cons_of_neg (by simpa using h), List.reverse_cons, List.reverse_reverse]
  rw [land, hnamed]
  simp only [List.getLast?_concat, List.dropLast_concat, Nat.lt_irrefl, if_false]
  rfl

/-- What a write looks for at the end of a path: a name, and the directory that it stands in. -/
theorem land_eq_ok_iff :
    t.land links follow here parts = .ok l ↔ ∃ front name arrival, parts = front ++ [name] ∧
      name ≠ [] ∧ t.resolve links here (front ++ [[]]) = .ok arrival ∧
      t.landAt follow name arrival = .ok l := by
  have hsplit : ∀ {front front' : List Bytes} {name name' : Bytes},
      front ++ [name] = front' ++ [name'] ↔ front = front' ∧ name = name' := by
    simp
  rcases List.eq_nil_or_concat' parts with rfl | ⟨front, name, rfl⟩
  · refine ⟨nofun, ?_⟩
    rintro ⟨front, name, _, heq, _⟩
    exact absurd heq.symm (by simp)
  · by_cases hname : name = []
    · subst hname
      refine ⟨fun h => absurd h (land_slash front), ?_⟩
      rintro ⟨_, name, _, heq, hne, _⟩
      exact absurd (hsplit.1 heq).2.symm hne
    · rw [land_concat hname]
      constructor
      · intro h
        cases hresolve : t.resolve links here (front ++ [[]]) with
        | error e =>
          rw [hresolve] at h
          cases h
        | ok arrival =>
          rw [hresolve] at h
          exact ⟨front, name, arrival, rfl, hname, hresolve, h⟩
      · rintro ⟨front', name', arrival, heq, -, hresolve, hland⟩
        obtain ⟨rfl, rfl⟩ := hsplit.1 heq
        rw [hresolve]
        exact hland

/-- What stands at a location leaves room for a file: it is one already, or nothing. -/
structure IsOpen (t : FileTree) (l : Location) : Prop where
  ne_nil : l ≠ []
  named : l.IsNamed
  file : ∀ n, t.node? l = some n → ∃ contents, n = .file contents

theorem isOpen_of_land (hparts : ∀ part ∈ parts, Path.slash ∉ part)
    (hfollow : ∀ left here parts, (∀ part ∈ parts, Path.slash ∉ part) →
      follow left here parts = .ok l → IsOpen t l)
    (h : t.land links follow here parts = .ok l) : IsOpen t l := by
  obtain ⟨front, name, ⟨directory, left⟩, rfl, hne, hresolve, hland⟩ := land_eq_ok_iff.1 h
  obtain ⟨hname, ⟨rfl, hfile⟩ | ⟨target, hlink, hmore⟩⟩ := (landAt_eq_ok_iff hne).1 hland
  · have hdirectory : t.node? directory = some .directory :=
      (resolve_eq_ok_iff.1 hresolve).directory_of_slash front rfl
    -- The slash behind `front` makes sure that there is a directory to put the name into.
    have hlast : Path.IsName name :=
      ⟨hname.1, hname.2.1, hparts name (List.mem_append_right _ List.mem_cons_self)⟩
    refine ⟨by simp, ?_, hfile⟩
    intro part hmem
    rcases List.mem_append.1 hmem with hmem | hmem
    · exact isNamed_of_node? hdirectory part hmem
    · rw [List.mem_singleton.1 hmem]
      exact hlast
  · exact hfollow _ _ _ (fun part => Path.slash_notMem_of_mem_fields) hmore

theorem land_sameWays {follow' : Nat → Location → List Bytes → Except FileError Location}
    (hways : SameWays t t')
    (hfollow : ∀ left here parts, follow left here parts = .ok l → follow' left here parts = .ok l)
    (h : t.land links follow here parts = .ok l) : t'.land links follow' here parts = .ok l := by
  obtain ⟨front, name, ⟨directory, left⟩, rfl, hne, hresolve, hland⟩ := land_eq_ok_iff.1 h
  have hresolves := resolve_eq_ok_iff.1 hresolve
  have hdirectory : t'.node? directory = some .directory :=
    (hways.directory directory).2 (hresolves.directory_of_slash front rfl)
  -- What a path resolves to is kept if something is there, and a directory is.
  have hsome : (t'.node? directory).isSome := by
    rw [hdirectory]
    rfl
  have hresolve' := resolve_eq_ok_iff.2 (hresolves.sameWays hways hsome)
  obtain ⟨hname, hend⟩ := (landAt_eq_ok_iff hne).1 hland
  refine land_eq_ok_iff.2 ⟨front, name, (directory, left), rfl, hne, hresolve',
    (landAt_eq_ok_iff hne).2 ⟨hname, ?_⟩⟩
  rcases hend with ⟨hl, hfile⟩ | ⟨target, hlink, hmore⟩
  · exact Or.inl ⟨hl, IsFileIfAny.of_sameWays hfile hways⟩
  · exact Or.inr ⟨target, (hways.link _ target).2 hlink, hfollow _ _ _ hmore⟩

end Land

section Destination

variable {l : Location} {p : Path}

theorem isOpen_of_destinationFrom (ends : Nat) : ∀ {links here parts},
    (∀ part ∈ parts, Path.slash ∉ part) → t.destinationFrom ends links here parts = .ok l →
    IsOpen t l := by
  induction ends with
  | zero =>
    intro links here parts hparts h
    rw [destinationFrom] at h
    apply isOpen_of_land hparts _ h
    intro left here parts _ hmore
    cases hmore
  | succ ends ih =>
    intro links here parts hparts h
    rw [destinationFrom] at h
    apply isOpen_of_land hparts _ h
    intro left here parts hparts hmore
    cases left with
    | zero => cases hmore
    | succ left => exact ih hparts hmore

theorem destinationFrom_sameWays (hways : SameWays t t') (ends : Nat) : ∀ {links here parts},
    t.destinationFrom ends links here parts = .ok l →
    t'.destinationFrom ends links here parts = .ok l := by
  induction ends with
  | zero =>
    intro links here parts h
    rw [destinationFrom] at h ⊢
    apply land_sameWays hways _ h
    intro left here parts hmore
    cases hmore
  | succ ends ih =>
    intro links here parts h
    rw [destinationFrom] at h ⊢
    apply land_sameWays hways _ h
    intro left here parts hmore
    cases left with
    | zero => cases hmore
    | succ left => exact ih hmore

theorem destination_eq_ok_iff : t.destination p = .ok l ↔ checkPath p = .ok () ∧
    t.destinationFrom maxLinks maxLinks (start t.workingDirectory p) p.segments = .ok l := by
  rw [destination]
  cases checkPath p with
  | error e => simp [bind, Except.bind]
  | ok u => simp [bind, Except.bind]

theorem isOpen_of_destination (h : t.destination p = .ok l) : IsOpen t l :=
  isOpen_of_destinationFrom _ (fun _ => Path.slash_notMem_of_mem_fields)
    (destination_eq_ok_iff.1 h).2

/-- Writes go to the same places in trees with the same ways. -/
theorem destination_sameWays (hways : SameWays t t') :
    t'.destination p = .ok l ↔ t.destination p = .ok l := by
  simp only [destination_eq_ok_iff, hways.workingDirectory]
  exact and_congr_right fun _ =>
    ⟨destinationFrom_sameWays hways.symm _, destinationFrom_sameWays hways _⟩

/-! ### Writing -/

variable {contents : Bytes} {cause : FileError}

/-- A file is opened where the write goes, unless that is refused. -/
theorem openFile_eq_ok_iff :
    t.openFile p = .ok l ↔ t.destination p = .ok l ∧ t.refusal? .write l = none := by
  rw [openFile]
  cases t.destination p with
  | error e => simp [bind, Except.bind]
  | ok l' =>
    cases hrefusal : t.refusal? .write l' with
    | none =>
      simp only [bind, Except.bind, permit, hrefusal, pure, Except.pure, Except.ok.injEq]
      constructor
      · rintro rfl
        exact ⟨rfl, hrefusal⟩
      · exact And.left
    | some cause =>
      simp only [bind, Except.bind, permit, hrefusal, reduceCtorEq, Except.ok.injEq, false_iff]
      rintro ⟨rfl, hnone⟩
      rw [hrefusal] at hnone
      cases hnone

theorem openFile_sameWays (hways : SameWays t t') (hfaults : t'.faults = t.faults) :
    t'.openFile p = .ok l ↔ t.openFile p = .ok l := by
  rw [openFile_eq_ok_iff, openFile_eq_ok_iff, destination_sameWays hways, refusal?_congr hfaults]

/-- There is room for some bytes at a location. -/
def Takes (t : FileTree) (l : Location) (size : Nat) : Prop :=
  ∀ bytes cause, t.room? l = some (bytes, cause) → size ≤ bytes

theorem Takes.congr {size : Nat} (h : t.Takes l size) (hfaults : t'.faults = t.faults) :
    t'.Takes l size := by
  intro bytes cause hroom
  rw [room?_congr hfaults] at hroom
  exact h bytes cause hroom

/-- How a write fails: the file cannot be opened, which changes nothing, or there is not enough
room, so that the file is left with the first bytes alone. -/
inductive BreaksOff (t : FileTree) (p : Path) (contents : Bytes) (cause : FileError) :
    FileTree → Prop where
  | refused (closed : t.openFile p = .error cause) : BreaksOff t p contents cause t
  | filled {l : Location} {bytes : Nat} (opened : t.openFile p = .ok l)
      (room : t.room? l = some (bytes, cause)) (short : bytes < contents.length) :
      BreaksOff t p contents cause (t.set l (.file (contents.take bytes)))

theorem fill_of_takes (h : t.Takes l contents.length) :
    t.fill l contents = (t.set l (.file contents), .ok ()) := by
  rw [fill]
  split
  · rfl
  · next bytes cause hroom => rw [if_neg (Nat.not_lt.2 (h bytes cause hroom))]

/-- **A write** puts all bytes into the file that it opens, or it breaks off. -/
theorem write_cases (t : FileTree) (p : Path) (contents : Bytes) :
    (∃ l, t.openFile p = .ok l ∧ t.Takes l contents.length ∧
      t.write p contents = (t.set l (.file contents), .ok ())) ∨
    ∃ cause final, t.write p contents = (final, .error cause) ∧
      BreaksOff t p contents cause final := by
  rw [write]
  cases hopen : t.openFile p with
  | error cause => exact Or.inr ⟨cause, t, rfl, .refused hopen⟩
  | ok l =>
    by_cases htakes : t.Takes l contents.length
    · exact Or.inl ⟨l, rfl, htakes, fill_of_takes htakes⟩
    · rw [Takes] at htakes
      push Not at htakes
      obtain ⟨bytes, cause, hroom, hshort⟩ := htakes
      refine Or.inr ⟨cause, _, ?_, .filled hopen hroom hshort⟩
      simp only [fill, hroom, if_pos hshort]

theorem write_eq_ok_iff : t.write p contents = (t', .ok ()) ↔ ∃ l, t.openFile p = .ok l ∧
    t.Takes l contents.length ∧ t' = t.set l (.file contents) := by
  constructor
  · intro h
    rcases write_cases t p contents with ⟨l, hopen, hroom, hwrite⟩ | ⟨cause, final, hwrite, -⟩
    · rw [hwrite, Prod.mk.injEq] at h
      exact ⟨l, hopen, hroom, h.1.symm⟩
    · rw [hwrite, Prod.mk.injEq] at h
      cases h.2
  · rintro ⟨l, hopen, hroom, rfl⟩
    rw [write, hopen]
    exact fill_of_takes hroom

theorem node?_set_of_destination (hl : t.destination p = .ok l) (contents : Bytes)
    (l' : Location) :
    (t.set l (.file contents)).node? l' = if l' = l then some (.file contents) else t.node? l' :=
  node?_set (isOpen_of_destination hl).ne_nil (isOpen_of_destination hl).named l'

theorem node?_write (hl : t.destination p = .ok l) (h : t.write p contents = (t', .ok ()))
    (l' : Location) : t'.node? l' = if l' = l then some (.file contents) else t.node? l' := by
  obtain ⟨at', hopen, -, rfl⟩ := write_eq_ok_iff.1 h
  obtain rfl := Except.ok.inj (hl.symm.trans (openFile_eq_ok_iff.1 hopen).1)
  exact node?_set_of_destination hl contents l'

/-- What is put where a write goes changes no directory and no link. -/
theorem sameWays_set (hl : t.destination p = .ok l) (contents : Bytes) :
    SameWays t (t.set l (.file contents)) := by
  have hnode := node?_set_of_destination hl contents
  have hopen := isOpen_of_destination hl
  have hother : ∀ l' n, (∀ contents, n ≠ .file contents) →
      ((t.set l (.file contents)).node? l' = some n ↔ t.node? l' = some n) := by
    intro l' n hn
    rw [hnode]
    split
    · -- where the file was written, neither tree has anything but a file
      next heq =>
      constructor
      · intro hfile
        exact absurd (Option.some.inj hfile).symm (hn _)
      · intro hold
        obtain ⟨contents, hcontents⟩ := hopen.file n (heq ▸ hold)
        exact absurd hcontents (hn contents)
    · exact Iff.rfl
  exact ⟨fun l' => hother l' _ nofun, fun l' target => hother l' _ nofun,
    workingDirectory_set t l _⟩

/-- A write changes no directory and no link. -/
theorem sameWays_write (h : t.write p contents = (t', .ok ())) : SameWays t t' := by
  obtain ⟨l, hopen, -, rfl⟩ := write_eq_ok_iff.1 h
  exact sameWays_set (openFile_eq_ok_iff.1 hopen).1 contents

theorem faults_write (h : t.write p contents = (t', .ok ())) : t'.faults = t.faults := by
  obtain ⟨l, -, -, rfl⟩ := write_eq_ok_iff.1 h
  exact faults_set t l _

namespace BreaksOff

variable {final : FileTree}

theorem write_eq (h : BreaksOff t p contents cause final) :
    t.write p contents = (final, .error cause) := by
  cases h with
  | refused closed => rw [write, closed]
  | filled opened room short =>
    rw [write, opened]
    simp only [fill, room, if_pos short]

theorem sameWays (h : BreaksOff t p contents cause final) : SameWays t final := by
  cases h with
  | refused closed => exact SameWays.refl t
  | filled opened room short => exact sameWays_set (openFile_eq_ok_iff.1 opened).1 _

/-- A write that breaks off changes nothing but the file that it goes to. -/
theorem node?_eq (h : BreaksOff t p contents cause final) (hl : t.destination p ≠ .ok l) :
    final.node? l = t.node? l := by
  cases h with
  | refused closed => rfl
  | filled opened room short =>
    have hdestination := (openFile_eq_ok_iff.1 opened).1
    rw [node?_set_of_destination hdestination, if_neg]
    rintro rfl
    exact hl hdestination

/-- What was there is still there. -/
theorem isSome (h : BreaksOff t p contents cause final) (hl : (t.node? l).isSome) :
    (final.node? l).isSome := by
  cases h with
  | refused closed => exact hl
  | filled opened room short =>
    rw [node?_set_of_destination (openFile_eq_ok_iff.1 opened).1]
    split
    · rfl
    · exact hl

/-- A file that was opened holds less than was to be written. -/
theorem node?_opened (h : BreaksOff t p contents cause final) (hl : t.openFile p = .ok l) :
    ∃ bytes < contents.length, final.node? l = some (.file (contents.take bytes)) := by
  cases h with
  | refused closed =>
    rw [closed] at hl
    cases hl
  | @filled at' bytes opened room short =>
    obtain rfl := Except.ok.inj (opened.symm.trans hl)
    refine ⟨bytes, short, ?_⟩
    rw [node?_set_of_destination (openFile_eq_ok_iff.1 opened).1, if_pos rfl]

end BreaksOff

end Destination

end EnvTemplates.FileTree
