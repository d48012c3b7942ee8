import EnvTemplates.Proofs.FileTree.Canonical
import EnvTemplates.Proofs.Project.Discovery

/-!
# The calls of a walk

A walk calls itself for the directories in a directory, links followed, and refuses to enter one
that it is inside of. No call can go on like this for ever, whatever the walk takes for the same
directory: each call is made for a longer path, and a path that is too long leads nowhere
(`wellFounded_calls`). So the walk is the recursion that has no bound on its depth (`walk_eq_step`),
and the only one (`eq_walk_of_eq_step`).

A walk fails where it comes back to a directory that it is inside of, and where it cannot list one.
`Fails` follows the names that lead there, call by call, and `walk_ends` says that the walk comes to
its end if and only if there are no such names.
-/

namespace EnvTemplates

theorem Run.bind_congr {α β : Type} {r : Run α} {f g : α → Run β}
    (h : ∀ a, r.result = .ok a → f a = g a) : r >>= f = r >>= g := by
  show Run.bind r f = Run.bind r g
  unfold Run.bind
  cases hresult : r.result with
  | error e => rfl
  | ok a => simp only [h a hresult]

namespace Walk

variable {s : Setting} {path : Path} {name : Name} {names : List Name} {inside : List Identity}
  {directory : Location} {e : Error}

/-! ### Calls -/

/-- What a call is given: the directories that the walk is inside of, and a path. -/
structure Call where
  inside : List Identity
  path : Path

/-- A call enters a directory and makes another call for a directory in it. -/
structure Calls (s : Setting) (next call : Call) : Prop where
  entered : identity s.tree call.path ∉ call.inside
  inside : next.inside = identity s.tree call.path :: call.inside
  exists_entry : ∃ directory name, s.tree.directoryAt? call.path = some directory ∧
    s.tree.refusal? .list directory = none ∧ name ∈ s.tree.names directory ∧
    next.path = call.path.join ⟨name⟩
  kept : s.excluded next.path true = false
  isDirectory : s.tree.isDirectory next.path = true

/-- The path of an entry is longer than that of its directory. -/
theorem length_lt_of_join_name (hname : Path.IsName name) (hne : path.bytes ≠ []) :
    path.bytes.length < (path.join ⟨name⟩).bytes.length := by
  have hpos : 0 < name.length := List.length_pos_iff.2 fun h => by
    subst h
    exact absurd hname.1 (by decide)
  rcases Path.bytes_join hname.2.2 (p := path) with ⟨hempty, -⟩ | ⟨x, hx, hjoin⟩ | ⟨-, hjoin⟩
  · exact absurd hempty hne
  · rw [hjoin, hx, List.length_append, List.length_append, List.length_singleton, List.length_cons]
    omega
  · rw [hjoin, List.length_append, List.length_cons]
    omega

/-- A call is made for a longer path, but not for one that is too long. -/
theorem length_lt_of_calls {next call : Call} (h : Calls s next call) :
    call.path.bytes.length < next.path.bytes.length ∧
      next.path.bytes.length ≤ FileTree.maxPath := by
  constructor
  · obtain ⟨directory, name, hpath, -, hname, hnext⟩ := h.exists_entry
    rw [hnext]
    exact length_lt_of_join_name (FileTree.isName_of_mem_names hname)
      (FileTree.checkPath_of_directoryAt? hpath).1
  · obtain ⟨directory, hdirectory⟩ := Option.isSome_iff_exists.1 h.isDirectory
    exact (FileTree.checkPath_of_directoryAt? hdirectory).2

/-- **Calls come to an end**, whatever links there are. -/
theorem wellFounded_calls (s : Setting) : WellFounded (Calls s) := by
  refine Subrelation.wf (fun {next call} h => ?_)
    (measure fun call : Call => FileTree.maxPath + 1 - call.path.bytes.length).wf
  obtain ⟨hlt, hle⟩ := length_lt_of_calls h
  show FileTree.maxPath + 1 - next.path.bytes.length < FileTree.maxPath + 1 - call.path.bytes.length
  omega

/-! ### The recursion without a bound -/

/-- Two functions do the same for a call, and leave the directories that the walk is inside of. -/
def Agree (visit visit' : State → Path → Run State) (call : Call) : Prop :=
  ∀ state, state.ancestors = call.inside →
    visit state call.path = visit' state call.path ∧
      ∀ after, (visit state call.path).result = .ok after → after.ancestors = call.inside

variable {visit visit' : State → Path → Run State}

theorem entry_agree (h : s.excluded path true = false → s.tree.isDirectory path = true →
    Agree visit visit' ⟨inside, path⟩) :
    Agree (entry s visit) (entry s visit') ⟨inside, path⟩ := by
  intro state hstate
  have hkept : ∀ {r : Run State} {after : State}, r.result = .ok state → r.result = .ok after →
      after.ancestors = inside := by
    intro r after hr hafter
    rw [hr, Except.ok.injEq] at hafter
    rw [← hafter, hstate]
  simp only [entry]
  cases hdirectory : s.tree.isDirectory path with
  | true =>
    cases hexcluded : s.excluded path true with
    | true =>
      refine ⟨rfl, fun after hafter => ?_⟩
      exact hkept rfl hafter
    | false => exact h hexcluded hdirectory state hstate
  | false =>
    refine ⟨rfl, fun after hafter => ?_⟩
    split at hafter
    · exact hkept rfl hafter
    · rw [if_neg Bool.false_ne_true] at hafter
      split at hafter
      · cases hafter
        exact hstate
      · exact hkept rfl hafter

theorem entries_agree {paths : List Path}
    (h : ∀ path ∈ paths, Agree (entry s visit) (entry s visit') ⟨inside, path⟩) :
    ∀ state, state.ancestors = inside →
      paths.foldlM (entry s visit) state = paths.foldlM (entry s visit') state ∧
        ∀ after, (paths.foldlM (entry s visit) state).result = .ok after →
          after.ancestors = inside := by
  induction paths with
  | nil =>
    intro state hstate
    refine ⟨rfl, fun after hafter => ?_⟩
    cases hafter
    exact hstate
  | cons path paths ih =>
    intro state hstate
    obtain ⟨hpath, hpaths⟩ := List.forall_mem_cons.1 h
    obtain ⟨heq, hkept⟩ := hpath state hstate
    rw [List.foldlM_cons, List.foldlM_cons]
    constructor
    · rw [← heq]
      exact Run.bind_congr fun mid hmid => (ih hpaths mid (hkept mid hmid)).1
    · intro after hafter
      obtain ⟨mid, hmid, hrest⟩ := Run.result_bind_eq_ok.1 hafter
      exact (ih hpaths mid (hkept mid hmid)).2 after hrest

/-- **What a call does is decided by the calls that it makes.** -/
theorem step_agree {call : Call} (h : ∀ next, Calls s next call → Agree visit visit' next) :
    Agree (step s visit) (step s visit') call := by
  intro state hstate
  rw [step, step]
  cases hpath : s.tree.directoryAt? call.path with
  | none =>
    refine ⟨rfl, fun after hafter => ?_⟩
    cases hafter
    exact hstate
  | some directory =>
    simp only
    split
    · refine ⟨rfl, fun after hafter => ?_⟩
      cases hafter
    · next hnew =>
      rw [hstate] at hnew
      have hinside : (state.enter (identity s.tree call.path)).ancestors =
          identity s.tree call.path :: call.inside := by
        rw [← hstate]
        rfl
      have hentries : ∀ paths, (entries s call.path directory).result = .ok paths →
          ∀ p ∈ paths, Agree (entry s visit) (entry s visit')
            ⟨identity s.tree call.path :: call.inside, p⟩ := by
        intro paths hpaths p hp
        obtain ⟨hlisted, rfl⟩ := entries_eq_ok_iff.1 hpaths
        obtain ⟨name, hname, rfl⟩ := List.mem_map.1 hp
        apply entry_agree
        intro hkept hdirectory
        exact h _ ⟨hnew, rfl, ⟨directory, name, hpath, hlisted, hname, rfl⟩, hkept, hdirectory⟩
      constructor
      · apply Run.bind_congr
        intro paths hpaths
        rw [(entries_agree (hentries paths hpaths) _ hinside).1]
      · intro after hafter
        obtain ⟨paths, hpaths, hrest⟩ := Run.result_bind_eq_ok.1 hafter
        obtain ⟨inner, hinner, hlast⟩ := Run.result_bind_eq_ok.1 hrest
        cases hlast
        exact ancestors_leave ((entries_agree (hentries paths hpaths) _ hinside).2 inner hinner)

/-- A bound that no path within its limits can reach makes no difference. -/
theorem visit_agree_step (depth : Nat) : ∀ call : Call,
    FileTree.maxPath < depth + 1 + call.path.bytes.length →
      Agree (Walk.visit s (depth + 1)) (step s (Walk.visit s (depth + 1))) call := by
  induction depth with
  | zero =>
    intro call h
    apply step_agree
    intro next hnext
    -- There is no further call: its path would be too long.
    obtain ⟨hlt, hle⟩ := length_lt_of_calls hnext
    omega
  | succ depth ih =>
    intro call h
    apply step_agree
    intro next hnext
    have hlt := (length_lt_of_calls hnext).1
    exact ih next (by omega)

/-- A walk through a directory, with the bound that the search for templates starts with. -/
def walk (s : Setting) : State → Path → Run State := Walk.visit s (FileTree.maxPath + 1)

/-- **The walk is the recursion without a bound.** -/
theorem walk_eq_step (s : Setting) : walk s = step s (walk s) := by
  funext state path
  have hbound : FileTree.maxPath < FileTree.maxPath + 1 + path.bytes.length := by omega
  exact (visit_agree_step _ ⟨state.ancestors, path⟩ hbound state rfl).1

/-- No other function satisfies the equation of the recursion. -/
theorem eq_walk_of_eq_step (h : visit = step s visit) : visit = walk s := by
  have hagree : ∀ call, Agree visit (walk s) call := by
    intro call
    induction call using (wellFounded_calls s).induction with
    | _ call ih =>
      have hstep := step_agree ih
      rw [← h, ← walk_eq_step] at hstep
      exact hstep
  funext state path
  exact (hagree ⟨state.ancestors, path⟩ state rfl).1

/-! ### How a walk ends -/

/-- A directory that a call does not enter: the walk is inside of it, or it cannot be listed. -/
inductive Refuses (s : Setting) (inside : List Identity) (path : Path) : Error → Prop where
  | returned (isDirectory : s.tree.isDirectory path = true)
      (ancestor : identity s.tree path ∈ inside) : Refuses s inside path (.symlinkCycle path)
  | unlisted {directory : Location} {cause : FileError}
      (found : s.tree.directoryAt? path = some directory)
      (refusal : s.tree.refusal? .list directory = some cause) : Refuses s inside path (.io cause)

/-- The names lead to a directory that a call does not enter, by way of directories that are not
passed over. -/
def Fails (s : Setting) : List Identity → Path → List Name → Error → Prop
  | inside, path, [], e => Refuses s inside path e
  | inside, path, name :: rest, e => s.tree.IsEntry path name ∧
    s.excluded (path.join ⟨name⟩) true = false ∧
    Fails s (identity s.tree path :: inside) (path.join ⟨name⟩) rest e

theorem Refuses.isDirectory (h : Refuses s inside path e) : s.tree.isDirectory path = true := by
  cases h with
  | returned isDirectory _ => exact isDirectory
  | unlisted found _ =>
    rw [FileTree.isDirectory, found]
    rfl

theorem Fails.isDirectory (h : Fails s inside path names e) : s.tree.isDirectory path = true := by
  cases names with
  | nil => exact Refuses.isDirectory h
  | cons name rest => exact isDirectory_of_isEntry h.1

/-- A part of a walk comes to its end, or it fails where some names lead to. -/
def Ends (inside : List Identity) (fails : List Name → Error → Prop) (r : Run State) : Prop :=
  (∃ after, r.result = .ok after ∧ after.ancestors = inside ∧ ∀ names e, ¬ fails names e) ∨
    ∃ names e, r.result = .error e ∧ fails names e

theorem entry_ends (h : s.excluded path true = false → s.tree.isDirectory path = true →
    ∀ state, state.ancestors = inside → Ends inside (Fails s inside path) (visit state path))
    {state : State} (hstate : state.ancestors = inside) :
    Ends inside (fun names e => s.excluded path true = false ∧ Fails s inside path names e)
      (entry s visit state path) := by
  simp only [entry]
  cases hdirectory : s.tree.isDirectory path with
  | true =>
    cases hexcluded : s.excluded path true with
    | true =>
      left
      refine ⟨state, rfl, hstate, ?_⟩
      rintro names e ⟨hkept, -⟩
      cases hkept
    | false =>
      rcases h hexcluded hdirectory state hstate with ⟨after, hok, hafter, hnone⟩ |
        ⟨names, e, herror, hfails⟩
      · exact Or.inl ⟨after, hok, hafter, fun names e hnames => hnone names e hnames.2⟩
      · exact Or.inr ⟨names, e, herror, rfl, hfails⟩
  | false =>
    -- What is no directory is not entered.
    have hnone : ∀ names e, ¬ (s.excluded path true = false ∧ Fails s inside path names e) := by
      rintro names e ⟨-, hfails⟩
      rw [hfails.isDirectory] at hdirectory
      cases hdirectory
    left
    rw [if_neg Bool.false_ne_true]
    split
    · exact ⟨state, rfl, hstate, hnone⟩
    · split
      · exact ⟨_, rfl, hstate, hnone⟩
      · exact ⟨state, rfl, hstate, hnone⟩

/-- The names of a list lead on to where each entry fails. -/
def FailsBy (s : Setting) (inside : List Identity) (path : Path) (entries names : List Name)
    (e : Error) : Prop :=
  ∃ name ∈ entries, ∃ rest, names = name :: rest ∧ s.excluded (path.join ⟨name⟩) true = false ∧
    Fails s inside (path.join ⟨name⟩) rest e

theorem entries_ends {entries : List Name}
    (h : ∀ name ∈ entries, s.excluded (path.join ⟨name⟩) true = false →
      s.tree.isDirectory (path.join ⟨name⟩) = true → ∀ state, state.ancestors = inside →
      Ends inside (Fails s inside (path.join ⟨name⟩)) (visit state (path.join ⟨name⟩))) :
    ∀ state, state.ancestors = inside → Ends inside (FailsBy s inside path entries)
      ((entries.map fun name => path.join ⟨name⟩).foldlM (entry s visit) state) := by
  induction entries with
  | nil =>
    intro state hstate
    refine Or.inl ⟨state, rfl, hstate, ?_⟩
    rintro names e ⟨name, hname, -⟩
    exact absurd hname List.not_mem_nil
  | cons name entries ih =>
    intro state hstate
    obtain ⟨hname, hrest⟩ := List.forall_mem_cons.1 h
    rw [List.map_cons, List.foldlM_cons]
    rcases entry_ends hname hstate with ⟨mid, hmid, hinside, hnone⟩ | ⟨names, e, herror, hfails⟩
    · rcases ih hrest mid hinside with ⟨after, hafter, hinside', hnone'⟩ |
        ⟨names, e, herror, n, hn, rest, hnames, hfails⟩
      · refine Or.inl ⟨after, Run.result_bind_eq_ok.2 ⟨mid, hmid, hafter⟩, hinside', ?_⟩
        rintro names e ⟨n, hn, rest, rfl, hfails⟩
        rcases List.mem_cons.1 hn with rfl | hn
        · exact hnone rest e hfails
        · exact hnone' _ e ⟨n, hn, rest, rfl, hfails⟩
      · exact Or.inr ⟨names, e, Run.result_bind_eq_error.2 (Or.inr ⟨mid, hmid, herror⟩), n,
          List.mem_cons_of_mem name hn, rest, hnames, hfails⟩
    · exact Or.inr ⟨name :: names, e, Run.result_bind_eq_error.2 (Or.inl herror), name,
        List.mem_cons_self, names, rfl, hfails⟩

/-- The entries of a directory fail where the directory does, if it is entered. -/
theorem failsBy_iff (hpath : s.tree.directoryAt? path = some directory)
    (hnew : identity s.tree path ∉ inside) (hlisted : s.tree.refusal? .list directory = none) :
    Fails s inside path names e ↔
      FailsBy s (identity s.tree path :: inside) path (s.tree.names directory) names e := by
  constructor
  · intro h
    cases names with
    | nil =>
      cases h with
      | returned _ hin => exact absurd hin hnew
      | unlisted found refusal =>
        obtain rfl := Option.some.inj (found.symm.trans hpath)
        rw [hlisted] at refusal
        cases refusal
    | cons name rest =>
      obtain ⟨⟨other, hother, hname⟩, hkept, hfails⟩ := h
      obtain rfl := Option.some.inj (hother.symm.trans hpath)
      exact ⟨name, hname, rest, rfl, hkept, hfails⟩
  · rintro ⟨name, hname, rest, rfl, hkept, hfails⟩
    exact ⟨⟨directory, hpath, hname⟩, hkept, hfails⟩

/-- The step lemma: how a call ends, given how the calls that it makes do. -/
theorem step_ends {call : Call}
    (h : ∀ next, Calls s next call → ∀ state, state.ancestors = next.inside →
      Ends next.inside (Fails s next.inside next.path) (visit state next.path))
    {state : State} (hstate : state.ancestors = call.inside) :
    Ends call.inside (Fails s call.inside call.path) (step s visit state call.path) := by
  rw [step]
  cases hpath : s.tree.directoryAt? call.path with
  | none =>
    refine Or.inl ⟨state, rfl, hstate, fun names e hfails => ?_⟩
    have hdirectory := hfails.isDirectory
    rw [FileTree.isDirectory, hpath] at hdirectory
    cases hdirectory
  | some directory =>
    have hdirectory : s.tree.isDirectory call.path = true := by
      rw [FileTree.isDirectory, hpath]
      rfl
    simp only
    split
    · next hin =>
      rw [hstate] at hin
      exact Or.inr ⟨[], _, rfl, Refuses.returned hdirectory hin⟩
    · next hnew =>
      rw [hstate] at hnew
      cases hentries : (entries s call.path directory).result with
      | error e =>
        obtain ⟨cause, hrefusal, rfl⟩ := entries_eq_error_iff.1 hentries
        exact Or.inr ⟨[], _, Run.result_bind_eq_error.2 (Or.inl hentries),
          Refuses.unlisted hpath hrefusal⟩
      | ok paths =>
        obtain ⟨hlisted, rfl⟩ := entries_eq_ok_iff.1 hentries
        have hinside : (state.enter (identity s.tree call.path)).ancestors =
            identity s.tree call.path :: call.inside := by
          rw [← hstate]
          rfl
        have hcalls := entries_ends (fun name hname hkept hdirectory =>
          h ⟨identity s.tree call.path :: call.inside, call.path.join ⟨name⟩⟩
            ⟨hnew, rfl, ⟨directory, name, hpath, hlisted, hname, rfl⟩, hkept, hdirectory⟩)
          _ hinside
        rcases hcalls with ⟨inner, hinner, hleft, hnone⟩ | ⟨names, e, herror, hfails⟩
        · refine Or.inl ⟨inner.leave (identity s.tree call.path), Run.result_bind_eq_ok.2
            ⟨_, hentries, Run.result_bind_eq_ok.2 ⟨inner, hinner, rfl⟩⟩, ancestors_leave hleft, ?_⟩
          intro names e hfails
          exact hnone names e ((failsBy_iff hpath hnew hlisted).1 hfails)
        · exact Or.inr ⟨names, e, Run.result_bind_eq_error.2 (Or.inr ⟨_, hentries,
            Run.result_bind_eq_error.2 (Or.inl herror)⟩),
            (failsBy_iff hpath hnew hlisted).2 hfails⟩

/-- **How a walk ends**, whatever it is inside of at the start. The induction is along the calls. -/
theorem walk_ends (s : Setting) (call : Call) : ∀ state, state.ancestors = call.inside →
    Ends call.inside (Fails s call.inside call.path) (walk s state call.path) := by
  induction call using (wellFounded_calls s).induction with
  | _ call ih =>
    intro state hstate
    rw [walk_eq_step]
    exact step_ends ih hstate

end Walk

end EnvTemplates
