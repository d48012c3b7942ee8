import EnvTemplates.Proofs.FileTree.Writing
import EnvTemplates.Proofs.Project.Discovery
import EnvTemplates.Proofs.Project.Rendering

/-!
# What a run leaves behind

A run has two phases. Rendering writes nothing, so that a run which fails in it leaves the tree as
it was; its errors tell it from the second phase (`render_error`). Then the outputs are written one
after the other, up to the first that cannot be. A write puts a file where there was a file or
nothing, so it changes no directory and no link, and all writes go where they would have gone in the
tree at the start (`destination_sameWays`). What stands where at the end is told by the last output
that went there (`node?_foldlM_writeOutput`).

The write that fails may have opened its file before it did. Then the file is left with the first
bytes of the output, and this file is all that is not told by the outputs before it (`IsStopped`).
-/

namespace EnvTemplates

/-! ### Errors of the first phase -/

/-- A run that fails gives one of certain errors. -/
def Run.FailsWith {α : Type} (P : Error → Prop) (r : Run α) : Prop := ∀ e, r.result = .error e → P e

namespace Run.FailsWith

variable {α β : Type} {P : Error → Prop}

theorem bind {r : Run α} {f : α → Run β} (h : FailsWith P r) (hf : ∀ a, FailsWith P (f a)) :
    FailsWith P (r >>= f) := by
  intro e he
  rcases Run.result_bind_eq_error.1 he with he | ⟨a, -, he⟩
  · exact h e he
  · exact hf a e he

theorem of_ok {r : Run α} {a : α} (h : r.result = .ok a) : FailsWith P r := by
  intro e he
  rw [h] at he
  cases he

theorem foldlM {f : β → α → Run β} (h : ∀ b a, FailsWith P (f b a)) (l : List α) :
    ∀ b, FailsWith P (l.foldlM f b) := by
  induction l with
  | nil =>
    intro b
    exact of_ok (a := b) rfl
  | cons a l ih =>
    intro b
    rw [List.foldlM_cons]
    exact (h b a).bind ih

end Run.FailsWith

open Run (FailsWith)

variable {t : FileTree} {root : Path} {definitions : Definitions} {options : Options}

/-- Write a rendered template to its output. -/
def FileTree.writeOutput (t : FileTree) (r : Rendered) : Except FileError FileTree :=
  (t.write r.output (Utf8.encode r.content)).2.map fun _ =>
    (t.write r.output (Utf8.encode r.content)).1

/-- The last of the outputs that go to a location. -/
def FileTree.lastWriter? (t : FileTree) (l : Location) : List Rendered → Option Rendered
  | [] => none
  | r :: rest =>
    (lastWriter? t l rest).or (if t.destination r.output = .ok l then some r else none)

namespace FileTree

theorem writeOutput_eq_ok_iff {t mid : FileTree} {r : Rendered} : t.writeOutput r = .ok mid ↔
    t.write r.output (Utf8.encode r.content) = (mid, .ok ()) := by
  rw [writeOutput]
  rcases t.write r.output (Utf8.encode r.content) with ⟨written, e | u⟩
  · simp [Except.map]
  · simp [Except.map]

theorem BreaksOff.writeOutput_eq {t final : FileTree} {r : Rendered} {cause : FileError}
    (h : BreaksOff t r.output (Utf8.encode r.content) cause final) :
    t.writeOutput r = .error cause := by
  rw [writeOutput, h.write_eq]
  rfl

theorem lastWriter?_sameWays {t t' : FileTree} (h : SameWays t t') (l : Location)
    (rs : List Rendered) : t'.lastWriter? l rs = t.lastWriter? l rs := by
  induction rs with
  | nil => rfl
  | cons r rs ih =>
    rw [lastWriter?, lastWriter?, ih]
    simp only [destination_sameWays h]

theorem lastWriter?_eq_none {l : Location} {rs : List Rendered}
    (h : ∀ r ∈ rs, t.destination r.output ≠ .ok l) : t.lastWriter? l rs = none := by
  induction rs with
  | nil => rfl
  | cons r rs ih =>
    obtain ⟨hr, hrs⟩ := List.forall_mem_cons.1 h
    rw [lastWriter?, ih hrs, if_neg hr]
    rfl

theorem lastWriter?_append {l : Location} {r : Rendered} {after : List Rendered}
    (hr : t.destination r.output = .ok l) (hafter : ∀ r' ∈ after, t.destination r'.output ≠ .ok l)
    (before : List Rendered) : t.lastWriter? l (before ++ r :: after) = some r := by
  induction before with
  | nil =>
    rw [List.nil_append, lastWriter?, lastWriter?_eq_none hafter, if_pos hr]
    rfl
  | cons first before ih =>
    rw [List.cons_append, lastWriter?, ih]
    rfl

theorem foldlM_writeOutput_cons_eq_ok_iff {r : Rendered} {rs : List Rendered}
    {t final : FileTree} : (r :: rs).foldlM writeOutput t = .ok final ↔
      ∃ mid, t.writeOutput r = .ok mid ∧ rs.foldlM writeOutput mid = .ok final := by
  rw [List.foldlM_cons]
  cases t.writeOutput r with
  | error e => simp [bind, Except.bind]
  | ok mid => simp [bind, Except.bind]

/-- **The tree after some writes**: where an output went, the content of the last one stands, and
everywhere else what stood there before. -/
theorem node?_foldlM_writeOutput {rs : List Rendered} : ∀ {t final : FileTree},
    rs.foldlM writeOutput t = .ok final → SameWays t final ∧
      ∀ l, final.node? l =
        ((t.lastWriter? l rs).map fun r => .file (Utf8.encode r.content)).or (t.node? l) := by
  induction rs with
  | nil =>
    intro t final h
    cases h
    exact ⟨SameWays.refl t, fun l => rfl⟩
  | cons r rs ih =>
    intro t final h
    obtain ⟨mid, hwrite, hrest⟩ := foldlM_writeOutput_cons_eq_ok_iff.1 h
    rw [writeOutput_eq_ok_iff] at hwrite
    have hways : SameWays t mid := sameWays_write hwrite
    obtain ⟨hlater, hnode⟩ := ih hrest
    obtain ⟨dest, hopen, -⟩ := write_eq_ok_iff.1 hwrite
    have hdest := (openFile_eq_ok_iff.1 hopen).1
    refine ⟨hways.trans hlater, fun l => ?_⟩
    -- The first write has moved no destination, so the later ones go where they would have gone.
    rw [hnode, lastWriter?_sameWays hways, lastWriter?, node?_write hdest hwrite, hdest]
    cases t.lastWriter? l rs with
    | some last => rfl
    | none =>
      by_cases hl : l = dest
      · subst hl
        simp
      · have hne : ¬ dest = l := fun heq => hl heq.symm
        simp [hl, hne]

/-- What goes wrong where stays as it was. -/
theorem faults_foldlM_writeOutput {rs : List Rendered} : ∀ {t final : FileTree},
    rs.foldlM writeOutput t = .ok final → final.faults = t.faults := by
  induction rs with
  | nil =>
    intro t final h
    cases h
    rfl
  | cons r rs ih =>
    intro t final h
    obtain ⟨mid, hwrite, hrest⟩ := foldlM_writeOutput_cons_eq_ok_iff.1 h
    rw [ih hrest, faults_write (writeOutput_eq_ok_iff.1 hwrite)]

/-- A tree differs from another one by the outputs of a list alone, written in order. -/
structure IsWritten (t : FileTree) (applied : List Rendered) (final : FileTree) : Prop where
  inOrder : applied.foldlM writeOutput t = .ok final
  /-- Every output goes to a file or to nothing. -/
  target : ∀ r ∈ applied, ∃ l, t.destination r.output = .ok l ∧ IsOpen t l
  /-- What no output goes to stays as it was. -/
  untouched : ∀ l, (∀ r ∈ applied, t.destination r.output ≠ .ok l) → final.node? l = t.node? l
  /-- Of several outputs that go to the same place, the last one stays. -/
  last : ∀ before r after l, applied = before ++ r :: after → t.destination r.output = .ok l →
    (∀ r' ∈ after, t.destination r'.output ≠ .ok l) →
    final.node? l = some (.file (Utf8.encode r.content))
  /-- No directory and no link comes, goes or changes. -/
  sameWays : SameWays t final
  /-- What was there is still there, and the same paths lead to it. -/
  located : ∀ p l, (t.node? l).isSome →
    (final.node? l).isSome ∧ (final.locate p = .ok l ↔ t.locate p = .ok l)

theorem exists_destination_of_foldlM {rs : List Rendered} : ∀ {t final : FileTree},
    rs.foldlM writeOutput t = .ok final → ∀ r ∈ rs, ∃ l, t.destination r.output = .ok l := by
  induction rs with
  | nil =>
    intro _ _ _ r hr
    exact absurd hr List.not_mem_nil
  | cons first rs ih =>
    intro t final h
    obtain ⟨mid, hwrite, hrest⟩ := foldlM_writeOutput_cons_eq_ok_iff.1 h
    rw [writeOutput_eq_ok_iff] at hwrite
    obtain ⟨dest, hopen, -⟩ := write_eq_ok_iff.1 hwrite
    refine List.forall_mem_cons.2 ⟨⟨dest, (openFile_eq_ok_iff.1 hopen).1⟩, fun r hr => ?_⟩
    obtain ⟨l, hl⟩ := ih hrest r hr
    exact ⟨l, (destination_sameWays (sameWays_write hwrite)).1 hl⟩

theorem isWritten_of_foldlM {applied : List Rendered} {final : FileTree}
    (h : applied.foldlM writeOutput t = .ok final) : IsWritten t applied final := by
  obtain ⟨hways, hnode⟩ := node?_foldlM_writeOutput h
  have hpresent : ∀ l, (t.node? l).isSome → (final.node? l).isSome := by
    intro l hl
    rw [hnode, Option.isSome_or, hl, Bool.or_true]
  refine ⟨h, ?_, ?_, ?_, hways, ?_⟩
  · intro r hr
    obtain ⟨l, hl⟩ := exists_destination_of_foldlM h r hr
    exact ⟨l, hl, isOpen_of_destination hl⟩
  · intro l hl
    rw [hnode, lastWriter?_eq_none hl]
    rfl
  · rintro before r after l rfl hr hafter
    rw [hnode, lastWriter?_append hr hafter]
    rfl
  · intro p l hl
    refine ⟨hpresent l hl, ?_, ?_⟩
    · exact locate_sameWays hways.symm hl
    · exact locate_sameWays hways (hpresent l hl)

/-- A tree differs from another one by the outputs of a list, written in order, and by what was
written of one more output, whose write failed. -/
structure IsStopped (t : FileTree) (before : List Rendered) (failed : Rendered)
    (cause : FileError) (final : FileTree) : Prop where
  inOrder : ∃ mid, IsWritten t before mid ∧
    BreaksOff mid failed.output (Utf8.encode failed.content) cause final
  /-- If the file of the failing output was not opened, exactly the outputs before it were
  written. -/
  refused : (∀ l, t.openFile failed.output ≠ .ok l) → IsWritten t before final
  /-- If it was opened, it holds a beginning of the output that is not all of it. -/
  opened : ∀ l, t.openFile failed.output = .ok l →
    ∃ bytes < (Utf8.encode failed.content).length,
      final.node? l = some (.file ((Utf8.encode failed.content).take bytes))
  /-- Every output goes to a file or to nothing. -/
  target : ∀ r ∈ before, ∃ l, t.destination r.output = .ok l ∧ IsOpen t l
  /-- What no output goes to stays as it was. -/
  untouched : ∀ l, (∀ r ∈ before, t.destination r.output ≠ .ok l) →
    t.destination failed.output ≠ .ok l → final.node? l = t.node? l
  /-- Of several outputs that go to the same place, the last one stays, unless the failing one goes
  there, too. -/
  last : ∀ earlier r later l, before = earlier ++ r :: later → t.destination r.output = .ok l →
    (∀ r' ∈ later, t.destination r'.output ≠ .ok l) → t.destination failed.output ≠ .ok l →
    final.node? l = some (.file (Utf8.encode r.content))
  /-- No directory and no link comes, goes or changes. -/
  sameWays : SameWays t final
  /-- What was there is still there, and the same paths lead to it. -/
  located : ∀ p l, (t.node? l).isSome →
    (final.node? l).isSome ∧ (final.locate p = .ok l ↔ t.locate p = .ok l)

theorem isStopped_of_breaksOff {before : List Rendered} {failed : Rendered} {cause : FileError}
    {mid final : FileTree} (hbefore : before.foldlM writeOutput t = .ok mid)
    (hbreak : BreaksOff mid failed.output (Utf8.encode failed.content) cause final) :
    IsStopped t before failed cause final := by
  have hwritten := isWritten_of_foldlM hbefore
  have hopenFile : ∀ l, mid.openFile failed.output = .ok l ↔ t.openFile failed.output = .ok l :=
    fun l => openFile_sameWays hwritten.sameWays (faults_foldlM_writeOutput hbefore)
  have hother : ∀ l, t.destination failed.output ≠ .ok l → final.node? l = mid.node? l := by
    intro l hl
    apply hbreak.node?_eq
    rw [Ne, destination_sameWays hwritten.sameWays]
    exact hl
  have hways := hwritten.sameWays.trans hbreak.sameWays
  have hpresent : ∀ l, (t.node? l).isSome → (final.node? l).isSome :=
    fun l hl => hbreak.isSome (hwritten.located ⟨Path.dot⟩ l hl).1
  refine ⟨⟨mid, hwritten, hbreak⟩, ?_, ?_, hwritten.target, ?_, ?_, hways, ?_⟩
  · intro hclosed
    cases hbreak with
    | refused => exact hwritten
    | filled opened => exact absurd ((hopenFile _).1 opened) (hclosed _)
  · intro l hl
    exact hbreak.node?_opened ((hopenFile l).2 hl)
  · intro l hbefore hfailed
    rw [hother l hfailed, hwritten.untouched l hbefore]
  · intro earlier r later l hsplit hr hlater hfailed
    rw [hother l hfailed, hwritten.last earlier r later l hsplit hr hlater]
  · intro p l hl
    refine ⟨hpresent l hl, ?_, ?_⟩
    · exact locate_sameWays hways.symm hl
    · exact locate_sameWays hways (hpresent l hl)

end FileTree

open FileTree

/-- Writing either applies all outputs, or all before the first one whose write breaks off. -/
theorem writeAll_cases (rs : List Rendered) : ∀ t : FileTree,
    ((writeAll t rs).2.result = .ok () ∧ rs.foldlM writeOutput t = .ok (writeAll t rs).1) ∨
      ∃ before failed after cause mid, rs = before ++ failed :: after ∧
        (writeAll t rs).2.result = .error (.outputWrite failed.output cause) ∧
        before.foldlM writeOutput t = .ok mid ∧
        BreaksOff mid failed.output (Utf8.encode failed.content) cause (writeAll t rs).1 := by
  induction rs with
  | nil =>
    intro t
    left
    exact ⟨rfl, rfl⟩
  | cons r rs ih =>
    intro t
    rcases write_cases t r.output (Utf8.encode r.content) with ⟨l, -, -, hwrite⟩ |
      ⟨cause, final, hwrite, hbreak⟩
    · -- Logging between two writes changes neither the tree nor the result.
      have hhead := writeOutput_eq_ok_iff.2 hwrite
      have hall : writeAll t (r :: rs) = ((writeAll (t.set l (.file (Utf8.encode r.content))) rs).1,
          do
            Run.log (.outputWritten r.output)
            (writeAll (t.set l (.file (Utf8.encode r.content))) rs).2) := by
        rw [writeAll, hwrite]
      rw [hall]
      simp only [Run.result_bind]
      rcases ih (t.set l (.file (Utf8.encode r.content))) with ⟨hok, hwritten⟩ |
        ⟨before, failed, after, cause, mid, rfl, herror, hwritten, hfailed⟩
      · exact Or.inl ⟨hok, foldlM_writeOutput_cons_eq_ok_iff.2 ⟨_, hhead, hwritten⟩⟩
      · refine Or.inr ⟨r :: before, failed, after, cause, mid, rfl, herror, ?_, hfailed⟩
        exact foldlM_writeOutput_cons_eq_ok_iff.2 ⟨_, hhead, hwritten⟩
    · refine Or.inr ⟨[], r, rs, cause, t, rfl, ?_⟩
      rw [writeAll, hwrite]
      exact ⟨rfl, rfl, hbreak⟩

/-- Outputs are written in order, up to the first one that cannot be written. -/
theorem foldlM_writeOutput_of_error {before after : List Rendered} {failed : Rendered}
    {mid final : FileTree} {cause : FileError} (hbefore : before.foldlM writeOutput t = .ok mid)
    (hfailed : BreaksOff mid failed.output (Utf8.encode failed.content) cause final) :
    (before ++ failed :: after).foldlM writeOutput t = .error cause := by
  rw [List.foldlM_append, hbefore]
  show (failed :: after).foldlM writeOutput mid = .error cause
  rw [List.foldlM_cons, hfailed.writeOutput_eq]
  rfl

theorem writeAll_of_foldlM {rs : List Rendered} {final : FileTree}
    (h : rs.foldlM writeOutput t = .ok final) :
    (writeAll t rs).1 = final ∧ (writeAll t rs).2.result = .ok () := by
  rcases writeAll_cases rs t with ⟨hok, hwritten⟩ |
    ⟨before, failed, after, cause, mid, rfl, -, hwritten, hfailed⟩
  · rw [h] at hwritten
    exact ⟨(Except.ok.inj hwritten).symm, hok⟩
  · rw [foldlM_writeOutput_of_error hwritten hfailed] at h
    cases h

/-- Writing logs each output that it has written. -/
theorem events_writeAll {rs : List Rendered} : ∀ {t final : FileTree},
    rs.foldlM writeOutput t = .ok final →
    (writeAll t rs).2.events = rs.map fun r => .outputWritten r.output := by
  induction rs with
  | nil => exact fun _ => rfl
  | cons r rs ih =>
    intro t final h
    obtain ⟨mid, hwrite, hrest⟩ := foldlM_writeOutput_cons_eq_ok_iff.1 h
    rw [writeAll, writeOutput_eq_ok_iff.1 hwrite]
    show [.outputWritten r.output] ++ (writeAll mid rs).2.events = _
    rw [ih hrest]
    rfl

theorem run_of_error {e : Error} (h : (render t root definitions options).result = .error e) :
    run t root definitions options = (t, render t root definitions options) := by
  rw [run, h]

theorem run_of_ok {report : Report}
    (h : (render t root definitions options).result = .ok report) :
    (run t root definitions options).1 = (writeAll t report.rendered).1 ∧
      (run t root definitions options).2.result =
        (writeAll t report.rendered).2.result.bind fun _ => .ok report := by
  rw [run, h]
  refine ⟨rfl, ?_⟩
  simp only [Run.result_bind, h]
  rfl

/-- A template next to a directory that cannot be listed. -/
def unlisted : FileTree where
  entries := [([Utf8.encode "a.envt".toList], .file (Utf8.encode "1".toList)),
    ([Utf8.encode "sub".toList], .directory)]
  faults := [([Utf8.encode "sub".toList], .refuses .list .permissionDenied)]
  distinct := by decide
  named := by decide

end EnvTemplates
