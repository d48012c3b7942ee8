import EnvTemplates.Proofs.FileTree.LinkFree

/-!
# Trees that differ in some files

Two trees agree on some names if they differ in nothing but regular files with other names: one tree
may have such a file where the other has none, the files may hold different bytes, or only one of
them may be read. The trees then have the same directories and the same links, and so the same paths
lead to directories. Without links, what is read under a name that the trees agree on is the same
(`AgreeOn.readText_join_name`).
-/

namespace EnvTemplates.FileTree

variable {t t' : FileTree} {keep : Name → Prop} {p : Path} {directory l : Location} {name : Name}

/-- Two trees differ at a location: in what stands there, or in what it may be asked for. -/
def DifferAt (t t' : FileTree) (l : Location) : Prop :=
  t'.node? l ≠ t.node? l ∨ ∃ access, t'.refusal? access l ≠ t.refusal? access l

/-- Two trees differ only in regular files whose names are not among those to keep. -/
structure AgreeOn (keep : Name → Prop) (t t' : FileTree) : Prop where
  workingDirectory : t'.workingDirectory = t.workingDirectory
  differ : ∀ l, DifferAt t t' l → (∃ directory name, l = directory ++ [name] ∧ ¬ keep name) ∧
    t.IsFileIfAny l ∧ t'.IsFileIfAny l

theorem DifferAt.symm (h : DifferAt t t' l) : DifferAt t' t l :=
  h.imp Ne.symm fun ⟨access, hne⟩ => ⟨access, hne.symm⟩

theorem eq_of_not_differAt (h : ¬ DifferAt t t' l) :
    t'.node? l = t.node? l ∧ ∀ access, t'.refusal? access l = t.refusal? access l := by
  rw [DifferAt, not_or, not_exists] at h
  exact ⟨not_not.1 h.1, fun access => not_not.1 (h.2 access)⟩

/-- Trees differ where one of them has an entry and the other has none. -/
theorem differAt_of_mem_names (h : name ∈ t.names directory) (h' : name ∉ t'.names directory) :
    DifferAt t t' (directory ++ [name]) := by
  rw [mem_names_iff_isSome] at h h'
  left
  intro hsame
  rw [hsame] at h'
  exact h' h

theorem AgreeOn.symm (h : AgreeOn keep t t') : AgreeOn keep t' t := by
  refine ⟨h.workingDirectory.symm, fun l hl => ?_⟩
  obtain ⟨hname, hfile, hfile'⟩ := h.differ l hl.symm
  exact ⟨hname, hfile', hfile⟩

/-- Under a name to keep the trees do not differ. -/
theorem AgreeOn.not_differAt (h : AgreeOn keep t t') (hname : keep name) (directory : Location) :
    ¬ DifferAt t t' (directory ++ [name]) := by
  intro hdiffer
  obtain ⟨⟨directory', name', heq, hother⟩, -⟩ := h.differ _ hdiffer
  obtain ⟨-, hlast⟩ := List.append_inj' heq rfl
  obtain rfl := List.singleton_inj.1 hlast
  exact hother hname

/-- Where something else than a regular file stands the trees do not differ. -/
theorem AgreeOn.not_differAt_of_node? (h : AgreeOn keep t t') {n : Node}
    (hn : ∀ contents, n ≠ .file contents) (hnode : t.node? l = some n) : ¬ DifferAt t t' l := by
  intro hdiffer
  obtain ⟨-, hfile, -⟩ := h.differ l hdiffer
  obtain ⟨contents, hcontents⟩ := hfile n hnode
  exact hn contents hcontents

/-- What is no regular file is the same in both trees. -/
theorem AgreeOn.node?_eq_some_iff (h : AgreeOn keep t t') {n : Node}
    (hn : ∀ contents, n ≠ .file contents) : t'.node? l = some n ↔ t.node? l = some n := by
  constructor
  · intro hnode
    rw [(eq_of_not_differAt (h.symm.not_differAt_of_node? hn hnode)).1]
    exact hnode
  · intro hnode
    rw [(eq_of_not_differAt (h.not_differAt_of_node? hn hnode)).1]
    exact hnode

theorem AgreeOn.sameWays (h : AgreeOn keep t t') : SameWays t t' where
  directory _ := h.node?_eq_some_iff nofun
  link _ _ := h.node?_eq_some_iff nofun
  workingDirectory := h.workingDirectory

theorem LinkFree.of_sameWays (hlinks : LinkFree t) (h : SameWays t t') : LinkFree t' :=
  fun l target hnode => hlinks l target ((h.link l target).1 hnode)

theorem directoryAt?_sameWays (h : SameWays t t') (p : Path) :
    t'.directoryAt? p = t.directoryAt? p := by
  apply Option.ext
  intro l
  rw [directoryAt?_eq_some_iff, directoryAt?_eq_some_iff, h.directory]
  apply and_congr_left
  intro hdirectory
  constructor
  · exact locate_sameWays h.symm (by rw [hdirectory]; rfl)
  · exact locate_sameWays h (by rw [(h.directory l).2 hdirectory]; rfl)

/-- **What is read under a name to keep** is the same in both trees. -/
theorem AgreeOn.readText_join_name (h : AgreeOn keep t t') (hlinks : LinkFree t) (hkeep : keep name)
    (hname : Path.IsName name) (hp : t.directoryAt? p = some directory)
    (hfile : t.isFile (p.join ⟨name⟩) = true) :
    t'.isFile (p.join ⟨name⟩) = true ∧
      t'.readText (p.join ⟨name⟩) = t.readText (p.join ⟨name⟩) := by
  obtain ⟨hdirectory, -⟩ := directoryAt?_eq_some_iff.1 hp
  obtain ⟨contents, hread⟩ := isFile_iff.1 hfile
  obtain ⟨l, hlocate, hnode⟩ := read_eq_ok_iff.1 hread
  obtain rfl := eq_of_locate_join_name hname hdirectory (hlinks _) hlocate
  obtain ⟨hsame, hrefusal⟩ := eq_of_not_differAt (h.not_differAt hkeep directory)
  rw [← hsame] at hnode
  have hlocate' : t'.locate (p.join ⟨name⟩) = .ok (directory ++ [name]) := by
    refine locate_sameWays h.sameWays ?_ hlocate
    rw [hnode]
    rfl
  have hread' : t'.read (p.join ⟨name⟩) = .ok contents := read_eq_ok_iff.2 ⟨_, hlocate', hnode⟩
  refine ⟨isFile_iff.2 ⟨contents, hread'⟩, ?_⟩
  rw [readText, readText, hlocate, hlocate', hread, hread']
  show (t'.permit .read (directory ++ [name])).bind _ =
    (t.permit .read (directory ++ [name])).bind _
  rw [permit, permit, hrefusal]

end EnvTemplates.FileTree
