import EnvTemplates.Proofs.CommandLine.Arguments
import EnvTemplates.Proofs.CommandLine.Printing
import EnvTemplates.Proofs.Project.Atomicity

/-!
# Dry runs

A dry run and a real run go through the same steps until the templates are rendered. They fail in
the same way before that (`runLogged_of_not_renders`), and have printed the same when they come to
the writing (`runLogged_of_renders`). What is left is `conclude`, which lists the outputs for the
one (`conclude_of_dryRun`) and writes them for the other (`conclude_cases`). What the runs print is
said by the relations for printed text, `Introduces` and `Closes` among them.
-/

namespace EnvTemplates.CommandLine

open FileTree

variable {t : FileTree} {i j : Invocation} {config : Config} {definitions : Definitions}
  {report : Report}

namespace Invocation

/-- The steps of an invocation up to the rendering succeed: its configuration and its definitions
are read, and its templates are rendered. -/
structure Renders (i : Invocation) (t : FileTree) (config : Config) (definitions : Definitions)
    (report : Report) : Prop where
  configured : (Config.load t (i.root t)).result = .ok config
  defined : (Definitions.load t i.definitions config.definitionsSuffix).result = .ok definitions
  rendered : (render t (i.root t) definitions config.options).result = .ok report

/-- Whether the output of an invocation is coloured, where the surroundings may allow it. -/
def coloured (i : Invocation) (colourful : Bool) : Bool := colourful && !i.noColor

/-- What a run has printed when its templates are rendered. -/
def shown (i : Invocation) (t : FileTree) (colourful : Bool) (definitions : Definitions)
    (report : Report) : Text :=
  (if i.verbose then announcement definitions else []) ++
    report.rendered.flatMap (block (i.coloured colourful) (i.root t))

/-- The events that an invocation keeps. -/
def kept (i : Invocation) (events : List Event) : List Event :=
  events.filter fun e => i.logLevel.admits e.level

theorem kept_append (i : Invocation) (events more : List Event) :
    i.kept (events ++ more) = i.kept events ++ i.kept more :=
  List.filter_append ..

/-- What is written is told of only if the run is verbose. -/
theorem kept_outputWritten (h : i.verbose = false) (rendered : List Rendered) :
    i.kept (rendered.map fun r => .outputWritten r.output) = [] := by
  rw [kept, List.filter_eq_nil_iff, List.forall_mem_map]
  intro r _
  rw [logLevel, h]
  show ¬ Level.warn.admits .debug = true
  decide

theorem Renders.eq {config' : Config} {definitions' : Definitions} {report' : Report}
    (h : i.Renders t config definitions report) (h' : i.Renders t config' definitions' report') :
    config' = config ∧ definitions' = definitions ∧ report' = report := by
  obtain rfl := Except.ok.inj (h'.configured.symm.trans h.configured)
  obtain rfl := Except.ok.inj (h'.defined.symm.trans h.defined)
  exact ⟨rfl, rfl, Except.ok.inj (h'.rendered.symm.trans h.rendered)⟩

end Invocation

open Invocation

/-! ### Up to the rendering -/

theorem inputs_eq_ok_iff {options : Options} :
    (inputs t i).result = .ok (options, definitions) ↔
      ∃ config, (Config.load t (i.root t)).result = .ok config ∧
        (Definitions.load t i.definitions config.definitionsSuffix).result = .ok definitions ∧
        options = config.options := by
  unfold inputs
  simp only [Run.result_bind_eq_ok, Run.result_pure, Except.ok.injEq, Prod.mk.injEq]
  constructor
  · rintro ⟨config, hconfig, _, hdefinitions, rfl, rfl⟩
    exact ⟨config, hconfig, hdefinitions, rfl⟩
  · rintro ⟨config, hconfig, hdefinitions, rfl⟩
    exact ⟨config, hconfig, definitions, hdefinitions, rfl, rfl⟩

theorem runLogged_of_inputs_error {e : Error} (h : (inputs t i).result = .error e)
    (colourful : Bool) : i.runLogged t colourful =
      { failed t [] (i.kept (inputs t i).events) e with coloured := i.coloured colourful } := by
  rw [runLogged, Invocation.run]
  simp only [h]
  rfl

theorem runLogged_of_render_error {options : Options} {e : Error}
    (hinputs : (inputs t i).result = .ok (options, definitions))
    (h : (render t (i.root t) definitions options).result = .error e) (colourful : Bool) :
    i.runLogged t colourful =
      { failed t (if i.verbose then announcement definitions else [])
          (i.kept ((inputs t i).events ++ (render t (i.root t) definitions options).events)) e with
        coloured := i.coloured colourful } := by
  rw [runLogged, Invocation.run]
  simp only [hinputs, h]
  rfl

/-- A run that does not come to render its templates fails, leaves the tree as it is, and does the
same as a dry run. -/
theorem runLogged_of_not_renders
    (h : ∀ config definitions report, ¬ i.Renders t config definitions report) (colourful : Bool) :
    ∃ shown events e, i.runLogged t colourful =
        { failed t shown events e with coloured := i.coloured colourful } ∧
      ∀ j, i.IsDry j → j.runLogged t colourful = i.runLogged t colourful := by
  -- Neither the inputs nor the rendering ask whether the run is a dry one.
  cases hinputs : (inputs t i).result with
  | error e =>
    have hreal := runLogged_of_inputs_error hinputs colourful
    refine ⟨_, _, e, hreal, ?_⟩
    rintro j ⟨-, rfl⟩
    exact (runLogged_of_inputs_error (i := { i with dryRun := true }) hinputs colourful).trans
      hreal.symm
  | ok found =>
    obtain ⟨options, definitions⟩ := found
    obtain ⟨config, hconfig, hdefinitions, rfl⟩ := inputs_eq_ok_iff.1 hinputs
    cases hrender : (render t (i.root t) definitions config.options).result with
    | ok report => exact absurd ⟨hconfig, hdefinitions, hrender⟩ (h config definitions report)
    | error e =>
      have hreal := runLogged_of_render_error hinputs hrender colourful
      refine ⟨_, _, e, hreal, ?_⟩
      rintro j ⟨-, rfl⟩
      exact (runLogged_of_render_error (i := { i with dryRun := true }) hinputs hrender
        colourful).trans hreal.symm

/-- How a run goes on that has rendered its templates. -/
theorem runLogged_of_renders (h : i.Renders t config definitions report) (colourful : Bool) :
    i.runLogged t colourful =
      let last := conclude t i (i.coloured colourful) definitions.environment
        (i.shown t colourful definitions report) report
      { last with
        events := i.kept ((inputs t i).events ++
          (render t (i.root t) definitions config.options).events ++ last.events)
        coloured := i.coloured colourful } := by
  have hinputs : (inputs t i).result = .ok (config.options, definitions) :=
    inputs_eq_ok_iff.2 ⟨config, h.configured, h.defined, rfl⟩
  rw [runLogged, Invocation.run]
  simp only [hinputs, h.rendered]
  rfl

/-! ### The end of a run -/

/-- The last lines of a run that has come to its end: those of a dry run or of a real one. -/
def closing (t : FileTree) (i : Invocation) (colourful : Bool) (environment : Text)
    (rendered : List Rendered) : Text :=
  if rendered = [] then nothingFound
  else if i.dryRun then listing (i.root t) environment rendered
  else written (i.coloured colourful) environment rendered

theorem conclude_of_dryRun (h : i.dryRun = true) (colourful : Bool) (environment shown : Text) :
    conclude t i (i.coloured colourful) environment shown report =
      { output := shown ++ closing t i colourful environment report.rendered
        warnings := report.warnings.flatMap (warningLine (i.coloured colourful) (i.root t))
        tree := t } := by
  unfold conclude closing
  simp only [h, if_true]
  split <;> rfl

/-- The end of a real run: all outputs are written, or all before the first one that cannot be
written. -/
theorem conclude_cases (h : i.dryRun = false) (t : FileTree) (colourful : Bool)
    (environment shown : Text) (report : Report) :
    (∃ final, report.rendered.foldlM writeOutput t = .ok final ∧
      conclude t i (i.coloured colourful) environment shown report =
        { output := shown ++ closing t i colourful environment report.rendered
          warnings := report.warnings.flatMap (warningLine (i.coloured colourful) (i.root t))
          events := report.rendered.map fun r => .outputWritten r.output
          tree := final }) ∨
    ∃ before rejected after cause mid final events,
      report.rendered = before ++ rejected :: after ∧ before.foldlM writeOutput t = .ok mid ∧
      BreaksOff mid rejected.output (Utf8.encode rejected.content) cause final ∧
      conclude t i (i.coloured colourful) environment shown report =
        failed final shown events (.outputWrite rejected.output cause) := by
  unfold conclude closing
  by_cases hnone : report.rendered = []
  · refine Or.inl ⟨t, by rw [hnone]; rfl, ?_⟩
    simp only [hnone, if_true]
    rfl
  · simp only [hnone, h, if_false, Bool.false_eq_true]
    rcases writeAll_cases report.rendered t with ⟨hok, hwritten⟩ |
      ⟨before, rejected, after, cause, mid, hsplit, herror, hwritten, hrejected⟩
    · refine Or.inl ⟨_, hwritten, ?_⟩
      simp only [hok, events_writeAll hwritten]
    · refine Or.inr ⟨before, rejected, after, cause, mid, _,
        (writeAll t report.rendered).2.events, hsplit, hwritten, hrejected, ?_⟩
      simp only [herror]
      rfl

/-! ### Both runs -/

section Agrees

variable (t : FileTree) (i j : Invocation) (colourful : Bool) (definitions : Definitions)
  (report : Report)

/-- What a run prints before it comes to the writing: which definitions it uses, if it is asked to
say more, and a block for each rendered template, in the order of the report. -/
def Introduces (text : Text) : Prop :=
  ∃ announced blocks, (if i.verbose then Announces definitions announced else announced = []) ∧
    IsPrinted (Shows (i.coloured colourful) (i.root t)) report.rendered blocks ∧
    text = announced ++ blocks

/-- What a run prints at its end: that there are no templates, or which outputs it would write, or
how many it has written. -/
def Closes (text : Text) : Prop :=
  if report.rendered = [] then text = "No template files found.\n".toList
  else if i.dryRun then Lists (i.root t) definitions.environment report.rendered text
  else Tells (i.coloured colourful) definitions.environment report.rendered text

theorem introduces_shown :
    Introduces t i colourful definitions report (i.shown t colourful definitions report) := by
  refine ⟨_, _, ?_, isPrinted_flatMap (shows_block (i.coloured colourful) (i.root t)) _, rfl⟩
  split
  · exact announces_announcement definitions
  · rfl

theorem closes_closing : Closes t i colourful definitions report
    (closing t i colourful definitions.environment report.rendered) := by
  unfold Closes closing
  split
  · rfl
  · split
    · exact lists_listing _ _ _
    · exact tells_written _ _ _

variable (shown : Text) (real dry : Outcome)

/-- A real run that has written all outputs. It warns of the same as the dry run, and logs nothing
else but the outputs. -/
structure WritesAll : Prop where
  status : real.status = 0
  failure : real.failure? = none
  warned : real.warnings = dry.warnings
  logged : real.events =
    dry.events ++ i.kept (report.rendered.map fun r => .outputWritten r.output)
  diagnosed : i.verbose = false → real.diagnostics = dry.diagnostics
  printed : ∃ told, Closes t i colourful definitions report told ∧ real.output = shown ++ told
  written : IsWritten t report.rendered real.tree

/-- A real run that has written the outputs before one that cannot be written. -/
structure WritesSome : Prop where
  status : real.status = failureStatus
  code : real.failure?.map Error.code = some "envt::output_write"
  printed : real.output = shown
  written : ∃ before rejected after cause, report.rendered = before ++ rejected :: after ∧
    real.failure? = some (.outputWrite rejected.output cause) ∧
    IsStopped t before rejected cause real.tree

/-- What a real run and a dry run of the same invocation do when its templates were rendered. Both
show the same blocks, and warn of all that the report does. The dry run then lists the outputs that
the real run writes, if it can write them all. -/
structure Agrees : Prop where
  status : dry.status = 0
  unchanged : dry.tree = t
  shows : Introduces t i colourful definitions report shown
  printed : ∃ listed, Closes t j colourful definitions report listed ∧ dry.output = shown ++ listed
  warned : IsPrinted (Warns (i.coloured colourful) (i.root t)) report.warnings dry.warnings
  ends : WritesAll t i colourful definitions report shown real dry ∨
    WritesSome t report shown real

end Agrees

theorem agrees_of_renders (hdry : i.IsDry j) (h : i.Renders t config definitions report)
    (colourful : Bool) :
    Agrees t i j colourful definitions report (i.shown t colourful definitions report)
      (i.runLogged t colourful) (j.runLogged t colourful) := by
  have hrenders : j.Renders t config definitions report := by
    obtain ⟨-, rfl⟩ := hdry
    exact ⟨h.configured, h.defined, h.rendered⟩
  obtain ⟨hreal, rfl⟩ := hdry
  rw [runLogged_of_renders h, runLogged_of_renders hrenders,
    conclude_of_dryRun (i := { i with dryRun := true }) rfl]
  refine ⟨rfl, rfl, introduces_shown .., ⟨_, closes_closing .., rfl⟩,
    isPrinted_flatMap (warns_warningLine _ _) _, ?_⟩
  rcases conclude_cases hreal t colourful definitions.environment
      (i.shown t colourful definitions report) report with
    ⟨final, hwritten, hend⟩ | ⟨before, rejected, after, cause, mid, final, events, hsplit,
      hwritten, hrejected, hend⟩
  · rw [hend]
    refine Or.inl ⟨rfl, rfl, rfl, ?_, fun hquiet => ?_, ⟨_, closes_closing .., rfl⟩,
      isWritten_of_foldlM hwritten⟩
    · show i.kept (_ ++ _) = i.kept (_ ++ []) ++ i.kept _
      rw [List.append_nil, kept_append]
      rfl
    · -- A run that is not verbose says nothing about the outputs that it writes.
      show (i.kept (_ ++ _)).flatMap _ ++ _ ++ _ ++ _ = (i.kept (_ ++ [])).flatMap _ ++ _ ++ _ ++ _
      rw [List.append_nil, kept_append, kept_outputWritten hquiet, List.append_nil]
      rfl
  · rw [hend]
    exact Or.inr ⟨rfl, rfl, rfl, before, rejected, after, cause, hsplit, rfl,
      isStopped_of_breaksOff hwritten hrejected⟩

/-- How a real run and a dry run of the same invocation compare. -/
structure DryRunAgrees (t : FileTree) (i j : Invocation) (colourful : Bool) (real dry : Outcome) :
    Prop where
  /-- The dry run leaves the tree as it is. -/
  unchanged : dry.tree = t
  /-- What makes the dry run fail makes the real run fail, which ends in the same way. -/
  fails : dry.status = failureStatus → real = dry ∧ dry.failure?.isSome
  succeeds : dry.status = 0 → ∃ config definitions report shown,
    i.Renders t config definitions report ∧
      Agrees t i j colourful definitions report shown real dry

theorem dryRunAgrees_runLogged (hdry : i.IsDry j) (t : FileTree) (colourful : Bool) :
    DryRunAgrees t i j colourful (i.runLogged t colourful) (j.runLogged t colourful) := by
  by_cases h : ∃ config definitions report, i.Renders t config definitions report
  · obtain ⟨config, definitions, report, hrenders⟩ := h
    have hagrees := agrees_of_renders hdry hrenders colourful
    refine ⟨hagrees.unchanged, fun hfails => ?_, fun _ =>
      ⟨config, definitions, report, _, hrenders, hagrees⟩⟩
    rw [hagrees.status] at hfails
    cases hfails
  · push Not at h
    obtain ⟨shown, events, e, hreal, hsame⟩ := runLogged_of_not_renders h colourful
    rw [hsame j hdry, hreal]
    refine ⟨rfl, fun _ => ⟨rfl, rfl⟩, fun hok => ?_⟩
    cases hok

/-! ### Exit statuses -/

/-- A run exits with one of two statuses. It succeeds if and only if its configuration and its
definitions are read, its templates are rendered and, unless it is a dry run, all outputs are
written. -/
def Exits (t : FileTree) (i : Invocation) (status : Nat) : Prop :=
  (status = 0 ∨ status = failureStatus) ∧
    (status = 0 ↔ ∃ config definitions report, i.Renders t config definitions report ∧
      (i.dryRun = false → ∃ final, report.rendered.foldlM writeOutput t = .ok final))

theorem exits_of_renders (h : i.Renders t config definitions report) (colourful : Bool) :
    Exits t i (i.runLogged t colourful).status := by
  cases hdry : i.dryRun with
  | true =>
    have hreal : ({ i with dryRun := false } : Invocation).IsDry i := by
      refine ⟨rfl, ?_⟩
      rw [← hdry]
    have hrenders : ({ i with dryRun := false } : Invocation).Renders t config definitions report :=
      ⟨h.configured, h.defined, h.rendered⟩
    have hstatus := (agrees_of_renders hreal hrenders colourful).status
    refine ⟨Or.inl hstatus, iff_of_true hstatus ⟨config, definitions, report, h, fun hfalse => ?_⟩⟩
    rw [hdry] at hfalse
    cases hfalse
  | false =>
    have hagrees := agrees_of_renders (j := { i with dryRun := true }) ⟨hdry, rfl⟩ h colourful
    rcases hagrees.ends with hall | hsome
    · exact ⟨Or.inl hall.status, iff_of_true hall.status
        ⟨config, definitions, report, h, fun _ => ⟨_, hall.written.inOrder⟩⟩⟩
    · refine ⟨Or.inr hsome.status, iff_of_false ?_ ?_⟩
      · rw [hsome.status]
        decide
      · -- There is one report only, and its outputs were seen not to be written.
        rintro ⟨_, _, report', h', hfinal⟩
        obtain ⟨-, -, rfl⟩ := h.eq h'
        obtain ⟨final, hfinal⟩ := hfinal hdry
        obtain ⟨before, rejected, after, cause, hsplit, -, hstopped⟩ := hsome.written
        obtain ⟨mid, hwritten, hrejected⟩ := hstopped.inOrder
        rw [hsplit, foldlM_writeOutput_of_error hwritten.inOrder hrejected] at hfinal
        cases hfinal

theorem exits_runLogged (t : FileTree) (i : Invocation) (colourful : Bool) :
    Exits t i (i.runLogged t colourful).status := by
  by_cases h : ∃ config definitions report, i.Renders t config definitions report
  · obtain ⟨config, definitions, report, hrenders⟩ := h
    exact exits_of_renders hrenders colourful
  · have hnone := h
    push Not at hnone
    obtain ⟨shown, events, e, hreal, -⟩ := runLogged_of_not_renders hnone colourful
    have hne : failureStatus ≠ 0 := by decide
    rw [hreal]
    refine ⟨Or.inr rfl, iff_of_false hne ?_⟩
    rintro ⟨config, definitions, report, hrenders, -⟩
    exact h ⟨config, definitions, report, hrenders⟩

/-! ### Arguments -/

/-- **A dry run does what the real run does, short of writing.** Arguments that are understood with
the option `--dry-run` and without it ask for the same invocation otherwise. Whatever two lists of
arguments ask for the same invocation, the one for a real run and the other for a dry one, the runs
compare as `DryRunAgrees` says. And any run exits as `Exits` says, whatever it warns of. -/
theorem dry_run_agrees (t : FileTree) (colourful : Bool) :
    (∀ before after i j, Request.ofArguments (before ++ after) = .ok (.render i) →
      Request.ofArguments (before ++ "--dry-run".toList :: after) = .ok (.render j) →
      i.IsDry j) ∧
    (∀ arguments dryArguments i j, Request.ofArguments arguments = .ok (.render i) →
      Request.ofArguments dryArguments = .ok (.render j) → i.IsDry j →
      DryRunAgrees t i j colourful (run t arguments colourful) (run t dryArguments colourful)) ∧
    ∀ arguments i, Request.ofArguments arguments = .ok (.render i) →
      Exits t i (run t arguments colourful).status := by
  refine ⟨?_, ?_, ?_⟩
  · intro before after i j hi hj
    exact ofArguments_insert_dryRun hi hj
  · intro arguments dryArguments i j hi hj hdry
    rw [run, run, hi, hj]
    exact dryRunAgrees_runLogged hdry t colourful
  · intro arguments i hi
    rw [run, hi]
    exact exits_runLogged t i colourful

/-- A definitions file and a template next to it, whose output is named for the environment. -/
def greeting : FileTree where
  entries := [([Utf8.encode "prod.env".toList], .file (Utf8.encode "A=1\nB=2".toList)),
    ([Utf8.encode "x.env.y.envt".toList], .file (Utf8.encode "<$\x7bA\x7d>".toList))]
  distinct := by decide
  named := by decide

def greetingDefinitions : Definitions where
  environment := "prod".toList
  path := .ofText "prod.env".toList
  vars := .ofList [⟨"A".toList, "1".toList⟩, ⟨"B".toList, "2".toList⟩]

def greetingRendered : Rendered :=
  ⟨.ofText "/x.env.y.envt".toList, .ofText "/x.prod.y".toList, "<1>".toList, 1⟩

def greetingReport : Report where
  rendered := [greetingRendered]
  counts := [⟨"A".toList, 1⟩, ⟨"B".toList, 0⟩]
  warnings := [.unusedVariable "B".toList]

/-- The invocation with nothing but the definitions file. -/
def greetingInvocation : Invocation where
  definitions := .ofText "prod.env".toList

theorem renders_greeting :
    greetingInvocation.Renders greeting {} greetingDefinitions greetingReport := by
  refine ⟨?_, ?_, ?_⟩
  · cbv
  · cbv
  · cbv

theorem foldlM_writeOutput_greeting : ∃ final,
    greetingReport.rendered.foldlM writeOutput greeting = .ok final ∧
      final.read (.ofText "/x.prod.y".toList) = .ok (Utf8.encode "<1>".toList) := by
  have hread : (greeting.writeOutput greetingRendered).map
      (fun t => t.read (.ofText "/x.prod.y".toList)) = .ok (.ok (Utf8.encode "<1>".toList)) := by
    cbv
  cases hwrite : greeting.writeOutput greetingRendered with
  | error cause =>
    rw [hwrite] at hread
    cases hread
  | ok final =>
    rw [hwrite] at hread
    exact ⟨final, foldlM_writeOutput_cons_eq_ok_iff.2 ⟨final, hwrite, rfl⟩, Except.ok.inj hread⟩

/-- What is printed before the writing. -/
def greetingShown : Text := "Template: x.env.y.envt\nOutput: x.prod.y\n<1>\n\n".toList

theorem eq_of_introduces_greeting {shown : Text}
    (h : Introduces greeting greetingInvocation false greetingDefinitions greetingReport shown) :
    shown = greetingShown := by
  obtain ⟨announced, blocks, hannounced, ⟨pieces, hpieces, rfl⟩, rfl⟩ := h
  obtain rfl : announced = [] := hannounced
  obtain ⟨piece, rest, hpiece, hrest, rfl⟩ := List.forall₂_cons_left_iff.1 hpieces
  obtain rfl := List.forall₂_nil_left_iff.1 hrest
  obtain ⟨first, second, named⟩ := hpiece
  cases first
  cases second
  have hname : greetingRendered.output.fileName? = some (Utf8.encode "x.prod.y".toList) := by
    cbv
  cases named with
  | nameless missing =>
    rw [hname] at missing
    cases missing
  | named last =>
    obtain rfl := Option.some.inj (last.symm.trans hname)
    cbv

theorem eq_of_lists_greeting {text : Text}
    (h : Lists (greetingInvocation.root greeting) "prod".toList [greetingRendered] text) :
    text = "Dry run: would write 1 file(s) for environment `prod`:\n  x.prod.y\n".toList := by
  obtain ⟨outputs, ⟨pieces, hpieces, rfl⟩, rfl⟩ := h
  obtain ⟨piece, rest, rfl, hrest, rfl⟩ := List.forall₂_cons_left_iff.1 hpieces
  obtain rfl := List.forall₂_nil_left_iff.1 hrest
  cbv

theorem eq_of_tells_greeting {text : Text} (h : Tells false "prod".toList [greetingRendered] text) :
    text = "Wrote 1 file(s) for environment `prod`.\n".toList := by
  obtain ⟨wrote, hwrote, rfl⟩ := h
  cases hwrote
  cbv

theorem eq_of_warns_greeting {text : Text}
    (h : IsPrinted (Warns false (greetingInvocation.root greeting))
      [.unusedVariable "B".toList] text) :
    text = "warning: no template references variable `B`\n".toList := by
  obtain ⟨pieces, hpieces, rfl⟩ := h
  obtain ⟨piece, rest, ⟨label, wording, hlabel, hwording, rfl⟩, hrest, rfl⟩ :=
    List.forall₂_cons_left_iff.1 hpieces
  obtain rfl := List.forall₂_nil_left_iff.1 hrest
  cases hlabel
  cases hwording
  cbv

/-- The dry run shows what the real run writes. Both warn of the second variable, which changes the
status of neither. -/
theorem dry_run_agrees_greeting :
    (run greeting ["prod.env".toList, "--dry-run".toList] false).tree = greeting ∧
    (run greeting ["prod.env".toList, "--dry-run".toList] false).status = 0 ∧
    (run greeting ["prod.env".toList] false).status = 0 ∧
    (run greeting ["prod.env".toList, "--dry-run".toList] false).output = greetingShown ++
      "Dry run: would write 1 file(s) for environment `prod`:\n  x.prod.y\n".toList ∧
    (run greeting ["prod.env".toList] false).output = greetingShown ++
      "Wrote 1 file(s) for environment `prod`.\n".toList ∧
    (run greeting ["prod.env".toList, "--dry-run".toList] false).warnings =
      "warning: no template references variable `B`\n".toList ∧
    (run greeting ["prod.env".toList] false).warnings =
      "warning: no template references variable `B`\n".toList ∧
    (run greeting ["prod.env".toList] false).diagnostics =
      (run greeting ["prod.env".toList, "--dry-run".toList] false).diagnostics ∧
    (run greeting ["prod.env".toList] false).tree.read (.ofText "/x.prod.y".toList) =
      .ok (Utf8.encode "<1>".toList) := by
  have hi : Request.ofArguments ["prod.env".toList] = .ok (.render greetingInvocation) := by
    decide
  have hj : Request.ofArguments ["prod.env".toList, "--dry-run".toList] =
      .ok (.render { greetingInvocation with dryRun := true }) := by
    cbv
  obtain ⟨hinsert, hcompare, hexits⟩ := dry_run_agrees greeting false
  have hagrees := hcompare _ _ _ _ hi hj (hinsert ["prod.env".toList] [] _ _ hi hj)
  obtain ⟨final, hfinal, hread⟩ := foldlM_writeOutput_greeting
  have hstatus := (hexits _ _ hj).2.2 ⟨_, _, _, ⟨renders_greeting.configured,
    renders_greeting.defined, renders_greeting.rendered⟩, Bool.noConfusion⟩
  have hreal := (hexits _ _ hi).2.2 ⟨_, _, _, renders_greeting, fun _ => ⟨final, hfinal⟩⟩
  obtain ⟨config, definitions, report, shown, hrenders, hboth⟩ := hagrees.succeeds hstatus
  obtain ⟨-, rfl, rfl⟩ := renders_greeting.eq hrenders
  obtain rfl := eq_of_introduces_greeting hboth.shows
  obtain ⟨listed, hlisted, hprinted⟩ := hboth.printed
  have hwarned := eq_of_warns_greeting hboth.warned
  refine ⟨hagrees.unchanged, hstatus, hreal, ?_, ?_⟩
  · rw [hprinted, eq_of_lists_greeting hlisted]
  · rcases hboth.ends with hall | hsome
    · obtain ⟨told, htold, hend⟩ := hall.printed
      refine ⟨?_, hwarned, hall.warned.trans hwarned, hall.diagnosed rfl, ?_⟩
      · rw [hend, eq_of_tells_greeting htold]
      · rw [Except.ok.inj (hall.written.inOrder.symm.trans hfinal)]
        exact hread
    · have hfailed := hsome.status
      rw [hreal] at hfailed
      cases hfailed

end EnvTemplates.CommandLine
