import Mathlib.Data.List.Nodup
import EnvTemplates.FileTree

/-!
# What stands where

Locations are listed at most once, so that a tree is known by what stands at each location:
`node?_set` says what putting a node somewhere does to the others, and `mem_names_iff` what the
entries of a directory are. The names of a directory are listed in strict order (`pairwise_names`).
-/

namespace EnvTemplates.FileTree

variable {t : FileTree} {l at' directory : Location} {n : Node} {name : Name}

/-! ### Nodes -/

theorem lookup_cons_eq_ite (l : Location) (e : Location × Node) (es : List (Location × Node)) :
    (e :: es).lookup l = if l = e.1 then some e.2 else es.lookup l := by
  by_cases h : l = e.1
  · rw [if_pos h, h]
    exact List.lookup_cons_self
  · have hbeq : (l == e.1) = false := beq_eq_false_iff_ne.2 h
    rw [if_neg h]
    show (match l == e.1 with | true => some e.2 | false => es.lookup l) = es.lookup l
    rw [hbeq]

theorem lookup_place (at' l : Location) (n : Node) (es : List (Location × Node)) :
    (place at' n es).lookup l = if l = at' then some n else es.lookup l := by
  induction es with
  | nil => rw [place, lookup_cons_eq_ite]
  | cons e es ih =>
    rw [place]
    split
    · next he =>
      rw [lookup_cons_eq_ite, lookup_cons_eq_ite, he]
      split <;> rfl
    · next he =>
      rw [lookup_cons_eq_ite, lookup_cons_eq_ite, ih]
      -- Keys are distinct from `at'` up to here, so the first entry of a location stays the first.
      by_cases hl : l = e.1
      · have hne : ¬ l = at' := fun h => he (hl.symm.trans h)
        rw [if_pos hl, if_neg hne, if_pos hl]
      · rw [if_neg hl, if_neg hl]

theorem mem_of_node? (hne : l ≠ []) (h : t.node? l = some n) : (l, n) ∈ t.entries := by
  rw [node?, if_neg hne] at h
  obtain ⟨before, after, hentries, -⟩ := List.lookup_eq_some_iff.1 h
  rw [hentries]
  exact List.mem_append_right _ List.mem_cons_self

/-- Nothing else stands where an entry says that something does. -/
theorem node?_of_mem (hne : l ≠ []) (h : (l, n) ∈ t.entries) : t.node? l = some n := by
  obtain ⟨n', hn'⟩ : ∃ n', t.node? l = some n' := by
    rw [node?, if_neg hne, ← Option.isSome_iff_exists, List.lookup_isSome_iff]
    exact ⟨(l, n), h, by simp⟩
  have hsame := List.inj_on_of_nodup_map t.distinct (mem_of_node? hne hn') h rfl
  rw [hn']
  exact congrArg some (Prod.ext_iff.1 hsame).2

/-- What stands somewhere has a name. -/
theorem isNamed_of_node? (h : t.node? l = some n) : l.IsNamed := by
  by_cases hl : l = []
  · rw [hl]
    intro name hname
    exact absurd hname List.not_mem_nil
  · exact t.named l (List.mem_map_of_mem (mem_of_node? hl h))

theorem node?_set (hne : at' ≠ []) (hnamed : at'.IsNamed) (l : Location) :
    (t.set at' n).node? l = if l = at' then some n else t.node? l := by
  rw [set, dif_pos hnamed, node?, node?, lookup_place]
  by_cases hl : l = []
  · have hother : ¬ l = at' := fun h => hne (h.symm.trans hl)
    rw [if_pos hl, if_pos hl, if_neg hother]
  · rw [if_neg hl, if_neg hl]

theorem workingDirectory_set (t : FileTree) (at' : Location) (n : Node) :
    (t.set at' n).workingDirectory = t.workingDirectory := by
  rw [set]
  split <;> rfl

theorem faults_set (t : FileTree) (at' : Location) (n : Node) :
    (t.set at' n).faults = t.faults := by
  rw [set]
  split <;> rfl

/-! ### Locations -/

/-- Putting a node in the place of another one leaves the locations as they are. -/
theorem keys_place {es : List (Location × Node)} (h : at' ∈ es.map (·.1)) :
    (place at' n es).map (·.1) = es.map (·.1) := by
  induction es with
  | nil => exact absurd h List.not_mem_nil
  | cons e es ih =>
    rw [place]
    split
    · next he => rw [List.map_cons, List.map_cons, he]
    · next he =>
      rw [List.map_cons, List.mem_cons] at h
      rw [List.map_cons, List.map_cons, ih (h.resolve_left fun heq => he heq.symm)]

/-- Entries at the same distinct locations are the same if a look-up finds the same. -/
theorem eq_of_lookup_eq {es : List (Location × Node)} (hdistinct : (es.map (·.1)).Nodup) :
    ∀ {es' : List (Location × Node)}, es'.map (·.1) = es.map (·.1) →
      (∀ l, es'.lookup l = es.lookup l) → es' = es := by
  induction es with
  | nil =>
    intro es' hkeys _
    exact List.map_eq_nil_iff.1 hkeys
  | cons e es ih =>
    intro es' hkeys hlookup
    obtain ⟨e', rest, rfl, hkey, hrest⟩ := List.map_eq_cons_iff.1 hkeys
    obtain ⟨hnew, hdistinct⟩ := List.nodup_cons.1 hdistinct
    have hnode : e'.2 = e.2 := by
      have hfirst := hlookup e.1
      rw [lookup_cons_eq_ite, lookup_cons_eq_ite, if_pos hkey.symm, if_pos rfl] at hfirst
      exact Option.some.inj hfirst
    have hothers : rest = es := by
      apply ih hdistinct hrest
      intro l
      by_cases hl : l = e.1
      · -- The location of the first entry is that of no other one.
        have hnone : ∀ {es : List (Location × Node)},
            e.1 ∉ es.map (·.1) → es.lookup e.1 = none := by
          intro es hes
          rw [List.lookup_eq_none_iff]
          intro p hp
          rw [bne_iff_ne]
          rintro heq
          exact hes (heq ▸ List.mem_map_of_mem hp)
        rw [hl, hnone hnew, hnone (hrest ▸ hnew)]
      · have hlater := hlookup l
        rw [lookup_cons_eq_ite, lookup_cons_eq_ite, if_neg hl, hkey, if_neg hl] at hlater
        exact hlater
    rw [hothers, Prod.ext hkey hnode]

theorem eq_of_entries_eq {t' : FileTree} (hentries : t'.entries = t.entries)
    (hworking : t'.workingDirectory = t.workingDirectory) (hfaults : t'.faults = t.faults) :
    t' = t := by
  cases t
  cases t'
  subst hentries hworking hfaults
  rfl

/-! ### The entries of a directory -/

/-- The entry of a directory that a location is, if it is one. -/
def entryOf? (directory l : Location) : Option Name :=
  if l.dropLast = directory then l.getLast? else none

theorem entryOf?_eq_some_iff : entryOf? directory l = some name ↔ l = directory ++ [name] := by
  rw [entryOf?]
  constructor
  · intro h
    split at h
    · next hdirectory =>
      obtain ⟨front, rfl⟩ := List.getLast?_eq_some_iff.1 h
      rw [List.dropLast_concat] at hdirectory
      rw [hdirectory]
    · cases h
  · rintro rfl
    rw [List.dropLast_concat, if_pos rfl, List.getLast?_concat]

theorem names_perm (t : FileTree) (directory : Location) :
    (t.names directory).Perm ((t.entries.map (·.1)).filterMap (entryOf? directory)) := by
  rw [names, List.filterMap_map]
  exact List.mergeSort_perm _ _

theorem mem_names_iff : name ∈ t.names directory ↔ directory ++ [name] ∈ t.entries.map (·.1) := by
  rw [(names_perm t directory).mem_iff, List.mem_filterMap]
  simp only [entryOf?_eq_some_iff, exists_eq_right]

/-- The names of a directory are those that something stands under. -/
theorem mem_names_iff_isSome :
    name ∈ t.names directory ↔ (t.node? (directory ++ [name])).isSome := by
  rw [mem_names_iff, node?, if_neg (by simp), List.lookup_isSome_iff, List.mem_map]
  simp only [beq_iff_eq, eq_comm (a := directory ++ [name])]

theorem isName_of_mem_names (h : name ∈ t.names directory) : Path.IsName name :=
  t.named _ (mem_names_iff.1 h) name (List.mem_append_right _ List.mem_cons_self)

theorem nodup_names (t : FileTree) (directory : Location) : (t.names directory).Nodup := by
  rw [(names_perm t directory).nodup_iff]
  apply List.Nodup.filterMap _ t.distinct
  intro a b name ha hb
  rw [entryOf?_eq_some_iff.1 ha, entryOf?_eq_some_iff.1 hb]

/-- The names of a directory are listed in strict order. -/
theorem pairwise_names (t : FileTree) (directory : Location) :
    (t.names directory).Pairwise (· < ·) := by
  -- Sorting gives an order with repetitions, and names are listed once.
  have hsorted : (t.names directory).Pairwise fun a b => nameLe a b = true := by
    refine List.pairwise_mergeSort ?_ ?_ _
    · intro a b c hab hbc
      exact decide_eq_true (List.le_trans (of_decide_eq_true hab) (of_decide_eq_true hbc))
    · intro a b
      simpa [nameLe] using List.le_total a b
  refine (hsorted.and (nodup_names t directory)).imp fun {a b} h => ?_
  obtain ⟨hle, hne⟩ := h
  by_contra hlt
  exact hne (List.le_antisymm (of_decide_eq_true hle) hlt)

/-- Of two directories, the names that both have are the same ones, in the same order. -/
theorem filter_names_comm (t t' : FileTree) (directory : Location) :
    (t'.names directory).filter (· ∈ t.names directory) =
      (t.names directory).filter (· ∈ t'.names directory) := by
  have hsorted := (pairwise_names t directory).filter (· ∈ t'.names directory)
  have hsorted' := (pairwise_names t' directory).filter (· ∈ t.names directory)
  refine List.Perm.eq_of_pairwise ?_ hsorted' hsorted ?_
  · intro a b _ _ hab hba
    exact absurd (List.lt_trans hab hba) (List.lt_irrefl a)
  · rw [List.perm_ext_iff_of_nodup ((nodup_names t' directory).filter _)
      ((nodup_names t directory).filter _)]
    intro name
    simp only [List.mem_filter, decide_eq_true_eq, and_comm]

/-! ### Faults -/

variable {t' : FileTree} {access : Access} {cause : FileError}

theorem refusal?_congr (h : t'.faults = t.faults) (access : Access) (l : Location) :
    t'.refusal? access l = t.refusal? access l := by
  rw [refusal?, refusal?, h]

theorem room?_congr (h : t'.faults = t.faults) (l : Location) : t'.room? l = t.room? l := by
  rw [room?, room?, h]

/-- A directory that can be listed lists all its names. -/
theorem list_eq_ok_iff {names : List Name} :
    t.list directory = .ok names ↔
      t.refusal? .list directory = none ∧ names = t.names directory := by
  rw [list, permit]
  cases t.refusal? .list directory with
  | none => simp [bind, Except.bind, pure, Except.pure, eq_comm]
  | some cause => simp [bind, Except.bind]

theorem list_eq_error_iff :
    t.list directory = .error cause ↔ t.refusal? .list directory = some cause := by
  rw [list, permit]
  cases t.refusal? .list directory with
  | none => simp [bind, Except.bind, pure, Except.pure]
  | some cause => simp [bind, Except.bind]

end EnvTemplates.FileTree
