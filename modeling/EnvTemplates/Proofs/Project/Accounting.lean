import EnvTemplates.Proofs.Project.Rendering

/-!
# The accounts of a context

One context can be handed to any calls in any order: templates are processed in it, some of which
cannot be read, substitutions are recorded in it and rendered templates are pushed to it. Whatever
the history, the three accounts of the context are told by what the calls recorded and pushed:

    counts      ◀── the tallies of every substitution recorded
    unresolved  ◀── the keys that nothing was replaced for, with the file
    rendered    ◀── the templates rendered

A call adds to each account at its end (`state_outcome`), hence so does a history, which is what the
run lemmas say. A call that fails has added nothing (`state_of_outcome_error`).
-/

namespace EnvTemplates

open RunContext

/-! ### Calls on a context in place -/

/-- A computation that changes a context in place. What it has changed before it fails stays. -/
abbrev InContext (α : Type) := ExceptT Error (StateM RunContext) α

/-- Process a template in place: read it, record its substitution, push what it is rendered to. -/
def processInPlace (t : FileTree) (definitions : Definitions) (options : Options)
    (template : Path) : InContext Unit := do
  let text ← MonadExcept.ofExcept ((t.readText template).mapError (.templateRead template))
  modify (·.record template (substitute text definitions.vars))
  modify (·.pushRendered (Source.rendered definitions options ⟨template, text⟩))

/-- Processing in place is `process`: where that gives a context it is the one that is left, and
where that fails nothing has been changed. -/
theorem run_processInPlace (t : FileTree) (definitions : Definitions) (options : Options)
    (template : Path) (context : RunContext) :
    (processInPlace t definitions options template).run.run context =
      match (process t definitions options context template).result with
      | .ok after => (.ok (), after)
      | .error e => (.error e, context) := by
  cases hread : t.readText template with
  | error cause =>
    have hresult : (process t definitions options context template).result =
        .error (.templateRead template cause) := process_eq_error_iff.2 ⟨cause, hread, rfl⟩
    rw [hresult, processInPlace, hread]
    rfl
  | ok text =>
    have hresult : (process t definitions options context template).result = .ok _ :=
      process_eq_ok_iff.2 ⟨text, hread, rfl⟩
    rw [hresult, processInPlace, hread]
    rfl

/-- A call that is made on a context. -/
inductive ContextCall where
  | process (t : FileTree) (definitions : Definitions) (options : Options) (template : Path)
  | record (file : Path) (s : Substitution)
  | pushRendered (r : Rendered)

/-- A substitution that was recorded, and the file it is recorded for. -/
structure Recording where
  file : Path
  substitution : Substitution

namespace ContextCall

/-- Make a call. -/
def perform : ContextCall → InContext Unit
  | process t definitions options template => processInPlace t definitions options template
  | record file s => modify (·.record file s)
  | pushRendered r => modify (·.pushRendered r)

/-- What a call answers, and the context that it leaves. -/
def outcome (call : ContextCall) (context : RunContext) : Except Error Unit × RunContext :=
  call.perform.run.run context

/-- What a call records: at most one substitution. -/
def recorded : ContextCall → List Recording
  | process t definitions _ template =>
    match t.readText template with
    | .ok text => [⟨template, substitute text definitions.vars⟩]
    | .error _ => []
  | record file s => [⟨file, s⟩]
  | pushRendered _ => []

/-- What a call pushes: at most one rendered template. -/
def pushed : ContextCall → List Rendered
  | process t definitions options template =>
    match t.readText template with
    | .ok text => [Source.rendered definitions options ⟨template, text⟩]
    | .error _ => []
  | record _ _ => []
  | pushRendered r => [r]

end ContextCall

namespace Recording

/-- The tallies of some recordings, one after the other. -/
def tallies (recordings : List Recording) : List Tally :=
  recordings.flatMap (·.substitution.replacements)

/-- The keys that nothing was replaced for, each with the file of its recording. -/
def missing (r : Recording) : List UnresolvedKey :=
  r.substitution.unresolved.map fun key => ⟨key, r.file⟩

end Recording

open ContextCall Recording

/-! ### One call -/

theorem outcome_process (t : FileTree) (definitions : Definitions) (options : Options)
    (template : Path) (context : RunContext) :
    outcome (.process t definitions options template) context =
      match (process t definitions options context template).result with
      | .ok after => (.ok (), after)
      | .error e => (.error e, context) :=
  run_processInPlace t definitions options template context

/-- **A call that fails leaves the context as it was.** -/
theorem state_of_outcome_error {call : ContextCall} {context : RunContext} {e : Error}
    (h : (call.outcome context).1 = .error e) : (call.outcome context).2 = context := by
  cases call with
  | process t definitions options template =>
    rw [outcome_process] at h ⊢
    cases hresult : (process t definitions options context template).result with
    | ok after =>
      rw [hresult] at h
      cases h
    | error e' => rfl
  | record file s => cases h
  | pushRendered r => cases h

/-- **What a call leaves**: each account of the context, longer by what the call adds to it. -/
theorem state_outcome (call : ContextCall) (context : RunContext) :
    (call.outcome context).2 =
      { counts := (tallies call.recorded).foldl addTally context.counts
        unresolved := context.unresolved ++ call.recorded.flatMap missing
        rendered := context.rendered ++ call.pushed } := by
  cases call with
  | process t definitions options template =>
    rw [outcome_process]
    cases hread : t.readText template with
    | error cause =>
      rw [process_eq_error_iff.2 ⟨cause, hread, rfl⟩]
      simp [recorded, pushed, hread, tallies]
    | ok text =>
      rw [process_eq_ok_iff.2 ⟨text, hread, rfl⟩]
      simp [recorded, pushed, hread, tallies, missing, RunContext.record,
        RunContext.pushRendered]
  | record file s =>
    show context.record file s = _
    simp [recorded, pushed, tallies, missing, RunContext.record]
  | pushRendered r =>
    show context.pushRendered r = _
    simp [recorded, pushed, tallies, RunContext.pushRendered]

/-! ### A history of calls -/

/-- The context after some calls, whether they succeeded or not. -/
def RunContext.after (context : RunContext) (history : List ContextCall) : RunContext :=
  history.foldl (fun context call => (call.outcome context).2) context

/-- The run lemma: the induction is on the calls that are left, over any context. -/
theorem after_eq (history : List ContextCall) :
    ∀ context : RunContext, context.after history =
      { counts := (tallies (history.flatMap recorded)).foldl addTally context.counts
        unresolved := context.unresolved ++ (history.flatMap recorded).flatMap missing
        rendered := context.rendered ++ history.flatMap pushed } := by
  induction history with
  | nil =>
    intro context
    simp [RunContext.after, tallies]
  | cons call history ih =>
    intro context
    rw [RunContext.after, List.foldl_cons, ← RunContext.after, ih, state_outcome]
    simp only [tallies, List.flatMap_cons, List.flatMap_append, List.foldl_append,
      List.append_assoc]

/-! ### Histories of templates only -/

/-- The calls that process a template with the given variables. -/
def ContextCall.Processes (vars : Variables) (call : ContextCall) : Prop :=
  ∃ t definitions options template,
    call = .process t definitions options template ∧ definitions.vars = vars

/-- Such a call records the declared keys and no other. -/
theorem keys_recorded_of_processes {vars : Variables} {call : ContextCall}
    (h : call.Processes vars) : ∀ r ∈ call.recorded, r.substitution.replacements.map (·.key) =
      vars.keys := by
  obtain ⟨t, definitions, options, template, rfl, rfl⟩ := h
  intro r hr
  cases hread : t.readText template with
  | error cause => simp [recorded, hread] at hr
  | ok text =>
    obtain rfl : r = ⟨template, substitute text definitions.vars⟩ := by
      simpa [recorded, hread] using hr
    exact Substitution.keys_replacements text definitions.vars

/-- What it pushes tells the number of the replacements that it records. -/
theorem replacements_pushed_of_processes {vars : Variables} {call : ContextCall}
    (h : call.Processes vars) :
    (call.pushed.map (·.replacements)).sum = Tally.total (tallies call.recorded) := by
  obtain ⟨t, definitions, options, template, rfl, -⟩ := h
  cases hread : t.readText template with
  | error cause => simp [recorded, pushed, hread, tallies, Tally.total]
  | ok text => simp [recorded, pushed, hread, tallies, Source.rendered, Substitution.total]

theorem replacements_pushed_of_history {vars : Variables} {history : List ContextCall}
    (h : ∀ call ∈ history, call.Processes vars) :
    ((history.flatMap pushed).map (·.replacements)).sum =
      Tally.total (tallies (history.flatMap recorded)) := by
  induction history with
  | nil => rfl
  | cons call history ih =>
    obtain ⟨hcall, hrest⟩ := List.forall_mem_cons.1 h
    rw [List.flatMap_cons, List.map_append, List.sum_append, ih hrest,
      replacements_pushed_of_processes hcall, List.flatMap_cons, tallies, tallies, tallies,
      List.flatMap_append, Tally.total_append]

theorem keys_tallies_of_history {vars : Variables} {history : List ContextCall}
    (h : ∀ call ∈ history, call.Processes vars) :
    ∀ t ∈ tallies (history.flatMap recorded), t.key ∈ vars.keys := by
  intro t ht
  obtain ⟨r, hr, ht⟩ := List.mem_flatMap.1 ht
  obtain ⟨call, hcall, hr⟩ := List.mem_flatMap.1 hr
  rw [← keys_recorded_of_processes (h call hcall) r hr]
  exact List.mem_map_of_mem ht

/-! ### The invariant -/

theorem keys_start (vars : Variables) : (start vars).counts.map (·.key) = vars.keys := by
  rw [start, List.map_map]
  exact List.map_id _

theorem total_start (vars : Variables) : Tally.total (start vars).counts = 0 := by
  rw [Tally.total, start, List.map_map]
  show (vars.keys.map fun _ => 0).sum = 0
  simp

theorem count_start (vars : Variables) (key : Text) : (start vars).count key = 0 := by
  apply Tally.getD_count?_eq_zero
  intro t ht
  obtain ⟨_, -, rfl⟩ := List.mem_map.1 ht
  rfl

/-- **The accounts of a context after any history of calls.** Its keys are the declared ones, in
the order of their declaration, and then the others in the order in which they were first recorded,
none of them twice. The count of a key is the sum of all that was recorded for it. Unresolved are,
call by call, the keys that a substitution refers to and has replaced nothing for. A call that fails
leaves the context as it was. And where templates are all that the context was used for, with its
own variables, what was counted is what the rendered templates report, and no key is undeclared. -/
theorem accounts_after_history (vars : Variables) (history : List ContextCall) :
    let context := (start vars).after history
    let recordings := history.flatMap recorded
    context.counts.map (·.key) = vars.keys ++
        (((tallies recordings).map (·.key)).filter fun key => key ∉ vars.keys).eraseDups ∧
      (context.counts.map (·.key)).Nodup ∧
      (∀ key, context.count key = Tally.sumOf key (tallies recordings)) ∧
      context.unresolved = (recordings.flatMap fun r =>
        (r.substitution.referenced.filter fun t => t.count = 0).map fun t => ⟨t.key, r.file⟩) ∧
      (∀ (call : ContextCall) e, (call.outcome context).1 = .error e →
        (call.outcome context).2 = context) ∧
      ((∀ call ∈ history, call.Processes vars) →
        Tally.total context.counts = (context.rendered.map (·.replacements)).sum ∧
        context.counts.map (·.key) = vars.keys) := by
  intro context recordings
  have hafter := after_eq history (start vars)
  have hcounts : context.counts = (tallies recordings).foldl addTally (start vars).counts :=
    congrArg RunContext.counts hafter
  have hrendered : context.rendered = history.flatMap pushed := congrArg RunContext.rendered hafter
  refine ⟨?_, ?_, ?_, ?_, fun call e => state_of_outcome_error, ?_⟩
  · rw [hcounts, keys_foldl_addTally, keys_start]
  · rw [hcounts]
    apply nodup_keys_foldl_addTally
    rw [keys_start]
    exact vars.distinct
  · intro key
    have hstart := count_start vars key
    rw [RunContext.count] at hstart
    rw [RunContext.count, hcounts, getD_count?_foldl, hstart, Nat.zero_add]
  · have hunresolved : context.unresolved = recordings.flatMap missing :=
      congrArg RunContext.unresolved hafter
    rw [hunresolved]
    apply List.flatMap_congr
    intro r _
    rw [missing, Substitution.unresolved, List.map_map]
    rfl
  · intro honly
    constructor
    · rw [hcounts, total_foldl_addTally, total_start, hrendered,
        replacements_pushed_of_history honly, Nat.zero_add]
    · rw [hcounts, keys_foldl_of_subset, keys_start]
      rw [keys_start]
      exact keys_tallies_of_history honly

/-- A project with one template, in which one of two keys is declared. -/
def countedProject : FileTree where
  entries := [([Utf8.encode "a.envt".toList],
    .file (Utf8.encode "$\x7bA\x7d$\x7bA\x7d$\x7bC\x7d".toList))]
  named := by decide

def countedDefinitions : Definitions where
  environment := "dev".toList
  path := .ofText "dev.envs".toList
  vars := .ofList [⟨"A".toList, "1".toList⟩]

/-- Process a template of the project. -/
def countedCall (template : String) : ContextCall :=
  .process countedProject countedDefinitions {} (.ofText template.toList)

/-- The template is processed, another one cannot be, and the first one is processed again. -/
def countedHistory : List ContextCall :=
  [countedCall "a.envt", countedCall "b.envt", countedCall "a.envt"]

/-- The context that is left. -/
def countedContext : RunContext := (start countedDefinitions.vars).after countedHistory

theorem accounts_after_history_counted :
    countedContext.counts = [⟨"A".toList, 4⟩] ∧
      (countedContext.rendered.map (·.replacements)).sum = 4 ∧
      ((countedCall "b.envt").outcome countedContext).2 = countedContext := by
  obtain ⟨-, -, -, -, hfail, honly⟩ :=
    accounts_after_history countedDefinitions.vars countedHistory
  have hprocesses : ∀ call ∈ countedHistory, call.Processes countedDefinitions.vars := by
    simp only [countedHistory, List.forall_mem_cons]
    exact ⟨⟨_, _, _, _, rfl, rfl⟩, ⟨_, _, _, _, rfl, rfl⟩, ⟨_, _, _, _, rfl, rfl⟩, by simp⟩
  have hcounts : countedContext.counts = [⟨"A".toList, 4⟩] := by cbv
  have herror : ((countedCall "b.envt").outcome countedContext).1 =
      .error (.templateRead (.ofText "b.envt".toList) .notFound) := by
    cbv
  have htotal : Tally.total countedContext.counts =
      (countedContext.rendered.map (·.replacements)).sum := (honly hprocesses).1
  refine ⟨hcounts, ?_, hfail (countedCall "b.envt") _ herror⟩
  rw [← htotal, hcounts]
  rfl

end EnvTemplates
