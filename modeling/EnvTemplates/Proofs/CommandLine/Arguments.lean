import EnvTemplates.CommandLine.Arguments

/-!
# The option for a dry run

Arguments that are understood with the option `--dry-run` and without it ask for the same
invocation, apart from the option (`ofArguments_insert_dryRun`). The option may stand anywhere among
the arguments. In places where it would be read as something else, such as the value of another
option or the definitions file, one of the two lists of arguments is refused.
-/

namespace EnvTemplates.CommandLine

/-! ### Results of two readings -/

section WhenOk

variable {ε α β γ δ : Type}

/-- What holds of two results if neither of them is an error. -/
def WhenOk (P : α → β → Prop) (x : Except ε α) (y : Except ε β) : Prop :=
  ∀ a b, x = .ok a → y = .ok b → P a b

variable {P : α → β → Prop} {Q : γ → δ → Prop} {x : Except ε α} {y : Except ε β}

theorem WhenOk.ok {a : α} {b : β} (h : P a b) : WhenOk P (.ok a : Except ε α) (.ok b) := by
  intro _ _ ha hb
  cases ha
  cases hb
  exact h

theorem WhenOk.error {e : ε} : WhenOk P (.error e) y := by
  intro _ _ ha
  cases ha

theorem WhenOk.bind (h : WhenOk P x y) {f : α → Except ε γ} {g : β → Except ε δ}
    (hmore : ∀ a b, P a b → WhenOk Q (f a) (g b)) : WhenOk Q (x >>= f) (y >>= g) := by
  intro c d hc hd
  cases x with
  | error e => cases hc
  | ok a =>
    cases y with
    | error e => cases hd
    | ok b => exact hmore a b (h a b rfl rfl) c d hc hd

/-- Two readings that start with the same step. -/
theorem WhenOk.bind_left {Q : γ → δ → Prop} {f : α → Except ε γ} {g : α → Except ε δ}
    (h : ∀ a, WhenOk Q (f a) (g a)) (x : Except ε α) : WhenOk Q (x >>= f) (x >>= g) := by
  have hsame : WhenOk Eq x x := by
    rintro a b ha hb
    exact Except.ok.inj (ha.symm.trans hb)
  refine hsame.bind ?_
  rintro a _ rfl
  exact h a

end WhenOk

/-! ### Drafts with the option and without it -/

namespace Draft

/-- The second draft is the first one with the option for a dry run. -/
structure IsDry (d d' : Draft) : Prop where
  definitions : d'.definitions? = d.definitions?
  root : d'.root? = d.root?
  notMem : .dryRun ∉ d.switches
  mem_iff : ∀ f, f ∈ d'.switches ↔ f = .dryRun ∨ f ∈ d.switches

variable {d d' : Draft}

theorem switch_whenOk (h : IsDry d d') (f : Flag) : WhenOk IsDry (d.switch f) (d'.switch f) := by
  have hswitch : ∀ f : Flag, WhenOk IsDry
      (if f ∈ d.switches then .error (Stop.usage (.repeatedOption f.long))
        else .ok { d with switches := f :: d.switches })
      (if f ∈ d'.switches then .error (Stop.usage (.repeatedOption f.long))
        else .ok { d' with switches := f :: d'.switches }) := by
    intro f
    by_cases hf : f ∈ d.switches
    · rw [if_pos hf]
      exact .error
    · rw [if_neg hf]
      by_cases hf' : f ∈ d'.switches
      · rw [if_pos hf']
        intro _ _ _ hb
        cases hb
      · rw [if_neg hf']
        have hne : f ≠ .dryRun := fun heq => hf' ((h.mem_iff f).2 (Or.inl heq))
        refine .ok ⟨h.definitions, h.root, ?_, fun g => ?_⟩
        · exact List.not_mem_cons_of_ne_of_not_mem hne.symm h.notMem
        · rw [List.mem_cons, List.mem_cons, h.mem_iff, or_left_comm]
  cases f with
  | version | help => exact .error
  | path | dryRun | verbose | noColor => exact hswitch _

theorem setRoot_whenOk (h : IsDry d d') (value : Text) :
    WhenOk IsDry (d.setRoot value) (d'.setRoot value) := by
  rw [setRoot, setRoot, h.root]
  split
  · exact .error
  · split
    · exact .error
    · exact .ok ⟨h.definitions, rfl, h.notMem, h.mem_iff⟩

theorem setDefinitions_whenOk (h : IsDry d d') (argument : Text) :
    WhenOk IsDry (d.setDefinitions argument) (d'.setDefinitions argument) := by
  rw [setDefinitions, setDefinitions, h.definitions]
  split
  · exact .error
  · split
    · exact .error
    · exact .ok ⟨rfl, h.root, h.notMem, h.mem_iff⟩

end Draft

/-- The second invocation is the first one as a dry run. -/
def Invocation.IsDry (i j : Invocation) : Prop := i.dryRun = false ∧ j = { i with dryRun := true }

open Draft

variable {d d' : Draft}

theorem finish_whenOk (h : Draft.IsDry d d') : WhenOk Invocation.IsDry d.finish d'.finish := by
  have hother : ∀ f : Flag, f ≠ .dryRun → d'.switches.contains f = d.switches.contains f := by
    intro f hf
    simp [h.mem_iff, hf]
  have hdry : d.switches.contains .dryRun = false := by simpa using h.notMem
  have hdry' : d'.switches.contains .dryRun = true := by simp [h.mem_iff]
  rw [finish, finish, h.definitions, h.root]
  cases d.definitions? with
  | none => exact .error
  | some definitions =>
    refine .ok ⟨hdry, ?_⟩
    rw [hdry', hother .verbose nofun, hother .noColor nofun]

/-! ### Reading on -/

/-- Two drafts in the course of a reading, of which the second has the option. -/
def IsDryState (a b : Draft × Bool) : Prop := Draft.IsDry a.1 b.1 ∧ a.2 = b.2

theorem readLong_whenOk (h : Draft.IsDry d d') (spelling : Text) (value : Option Text) :
    WhenOk IsDryState (readLong d spelling value) (readLong d' spelling value) := by
  have hlast : ∀ a b, Draft.IsDry a b →
      WhenOk IsDryState (pure (a, false) : Except Stop _) (pure (b, false)) :=
    fun a b hab => .ok ⟨hab, rfl⟩
  unfold readLong
  split
  · exact .error
  · exact .ok ⟨h, rfl⟩
  · exact (setRoot_whenOk h _).bind hlast
  · exact .error
  · exact (switch_whenOk h _).bind hlast

theorem readShort_whenOk (letters : Text) : ∀ {d d' : Draft}, Draft.IsDry d d' →
    WhenOk IsDryState (readShort d letters) (readShort d' letters) := by
  have hlast : ∀ a b, Draft.IsDry a b →
      WhenOk IsDryState (pure (a, false) : Except Stop _) (pure (b, false)) :=
    fun a b hab => .ok ⟨hab, rfl⟩
  induction letters with
  | nil => exact fun h => .ok ⟨h, rfl⟩
  | cons c rest ih =>
    intro d d' h
    unfold readShort
    split
    · exact .error
    · split
      · exact .ok ⟨h, rfl⟩
      · exact (setRoot_whenOk h _).bind hlast
      · exact (setRoot_whenOk h _).bind hlast
    · exact (switch_whenOk h _).bind fun a b hab => ih hab

theorem readPlain_whenOk (arguments : List Text) : ∀ {d d' : Draft}, Draft.IsDry d d' →
    WhenOk Invocation.IsDry (readPlain d arguments) (readPlain d' arguments) := by
  induction arguments with
  | nil => exact fun h => finish_whenOk h
  | cons a rest ih => exact fun h => (setDefinitions_whenOk h a).bind fun _ _ hab => ih hab

/-- The run lemma: whatever arguments follow, a reading that has seen the option ends with the same
invocation as one that has not. -/
theorem read_whenOk (arguments : List Text) : ∀ {d d' : Draft} (pending : Bool), Draft.IsDry d d' →
    WhenOk Invocation.IsDry (read d pending arguments) (read d' pending arguments) := by
  induction arguments with
  | nil =>
    intro d d' pending h
    unfold read
    split
    · exact .error
    · exact finish_whenOk h
  | cons a rest ih =>
    intro d d' pending h
    have hmore : ∀ a b, IsDryState a b →
        WhenOk Invocation.IsDry (read a.1 a.2 rest) (read b.1 b.2 rest) := by
      rintro a b ⟨hab, hpending⟩
      rw [← hpending]
      exact ih _ hab
    unfold read
    split
    · exact (setRoot_whenOk h a).bind fun _ _ hab => ih false hab
    · exact (setDefinitions_whenOk h a).bind fun _ _ hab => ih false hab
    · exact .error
    · exact readPlain_whenOk rest h
    · exact (readLong_whenOk h _ _).bind hmore
    · exact (readShort_whenOk _ h).bind hmore

/-! ### Putting the option in -/

/-- Among arguments that are no options, there is room for the definitions file only. -/
theorem length_of_readPlain {arguments : List Text} {i : Invocation} : ∀ {d : Draft},
    readPlain d arguments = .ok i → arguments.length + d.definitions?.toList.length = 1 := by
  induction arguments with
  | nil =>
    intro d h
    rw [readPlain, finish] at h
    cases hd : d.definitions? with
    | none =>
      rw [hd] at h
      cases h
    | some definitions => rfl
  | cons a rest ih =>
    intro d h
    rw [readPlain, setDefinitions] at h
    cases hd : d.definitions? with
    | some definitions =>
      rw [hd] at h
      cases h
    | none =>
      rw [hd] at h
      by_cases ha : a = []
      · rw [ha] at h
        cases h
      · simp only [Option.isSome_none, Bool.false_eq_true, if_false, ha] at h
        have hrest := ih h
        exact hrest

theorem readPlain_insert_whenOk (before after : List Text) (argument : Text) (d : Draft) :
    WhenOk Invocation.IsDry (readPlain d (before ++ after))
      (readPlain d (before ++ argument :: after)) := by
  intro i j hi hj
  have hlength := length_of_readPlain hi
  have hlength' := length_of_readPlain hj
  rw [List.length_append, List.length_cons] at hlength'
  rw [List.length_append] at hlength
  omega

theorem read_dryRun (d : Draft) (after : List Text) :
    read d false (Flag.dryRun.long.toList :: after) =
      d.switch .dryRun >>= fun d => read d false after := by
  have hshape : Shape.of Flag.dryRun.long.toList = .long Flag.dryRun.long.toList none := by
    decide
  have hflag : Flag.ofLong? Flag.dryRun.long.toList = some .dryRun := by
    decide
  have hlong : readLong d Flag.dryRun.long.toList none =
      d.switch .dryRun >>= fun d => .ok (d, false) := by
    unfold readLong
    simp only [hflag]
    rfl
  simp only [read, hshape, hlong]
  cases d.switch .dryRun <;> rfl

theorem read_dryRun_whenOk (after : List Text) (d : Draft) (pending : Bool) :
    WhenOk Invocation.IsDry (read d pending after)
      (read d pending (Flag.dryRun.long.toList :: after)) := by
  intro i j hi hj
  cases pending with
  | true => cases hj
  | false =>
    have hswitch : d.switch .dryRun =
        if .dryRun ∈ d.switches then .error (.usage (.repeatedOption Flag.dryRun.long))
        else .ok { d with switches := .dryRun :: d.switches } := rfl
    rw [read_dryRun, hswitch] at hj
    split at hj
    · cases hj
    · next hmem =>
      have hdry : Draft.IsDry d { d with switches := .dryRun :: d.switches } :=
        ⟨rfl, rfl, hmem, fun f => List.mem_cons⟩
      exact read_whenOk after false hdry i j hi hj

theorem read_insert_whenOk (before after : List Text) : ∀ (d : Draft) (pending : Bool),
    WhenOk Invocation.IsDry (read d pending (before ++ after))
      (read d pending (before ++ Flag.dryRun.long.toList :: after)) := by
  induction before with
  | nil => exact fun d pending => read_dryRun_whenOk after d pending
  | cons a before ih =>
    intro d pending
    rw [List.cons_append, List.cons_append]
    unfold read
    split
    · exact .bind_left (fun d => ih d false) _
    · exact .bind_left (fun d => ih d false) _
    · exact .error
    · exact readPlain_insert_whenOk before after _ d
    · exact .bind_left (fun state : Draft × Bool => ih state.1 state.2) _
    · exact .bind_left (fun state : Draft × Bool => ih state.1 state.2) _

/-- **The option for a dry run changes nothing else.** If arguments are understood without it and
with it, it was not among them before, and the invocation is the same but for being a dry run. -/
theorem ofArguments_insert_dryRun {before after : List Text} {i j : Invocation}
    (hi : Request.ofArguments (before ++ after) = .ok (.render i))
    (hj : Request.ofArguments (before ++ Flag.dryRun.long.toList :: after) = .ok (.render j)) :
    Invocation.IsDry i j := by
  have hread : ∀ {arguments : List Text} {i : Invocation},
      Request.ofArguments arguments = .ok (.render i) → read {} false arguments = .ok i := by
    intro arguments i h
    rw [Request.ofArguments] at h
    split at h
    · next hok =>
      cases h
      exact hok
    all_goals cases h
  exact read_insert_whenOk before after {} false i j (hread hi) (hread hj)

end EnvTemplates.CommandLine
