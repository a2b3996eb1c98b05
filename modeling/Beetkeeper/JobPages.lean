/-
The page of an import job: what its fragment shows, the buttons it offers and
the list of the jobs that have not ended.  A fragment is rendered from one row
read at one moment, while the processes go on.
-/
import Beetkeeper.CandidateChoice
import Beetkeeper.CleanSlate
import Beetkeeper.DecisionMatching
import Beetkeeper.JobListing
import Beetkeeper.UserConfig

namespace Beetkeeper

open Transition

/-- `os.path.basename(path.rstrip("/")) or path`. -/
def pathLabel (path : OsPath) : String :=
  (segmentTexts path).getLast?.getD (displayPath path)

/-- `source_label`. -/
def ImportJob.sourceLabel (job : ImportJob) : String :=
  let label := ", ".intercalate (job.paths.map pathLabel)
  if job.isCleanSlate then "clean slate: " ++ label else label

/-- `_job_settings_summary`. -/
def jobSettingsSummary (job : ImportJob) : String :=
  let flags := [(job.quiet, "quiet"), (job.groupAlbums, "group albums"),
    (job.flat, "flat"), (job.cleanSlateAllowFewerFiles, "allow fewer files")]
  let replaced := match job.cleanSlateAlbumId, job.cleanSlateItemId with
    | some albumId, _ => [s!"replaces album #{albumId}"]
    | none, some itemId => [s!"replaces track #{itemId}"]
    | none, none => []
  let logged := (job.logpath.filter (· ≠ "")).toList.map ("log: " ++ ·)
  let set := if job.setFields.isEmpty then [] else
    ["set: " ++ ", ".intercalate
      (job.setFields.map fun field => field.1 ++ "=" ++ field.2)]
  " · ".intercalate
    (replaced ++ (flags.filter Prod.fst).map Prod.snd ++ logged ++ set)

/-- `_job_entry`; the rows of the candidate table are the pending request's
candidates. -/
structure JobEntry where
  job : ImportJob
  settingsSummary : String
deriving Repr, DecidableEq

def jobEntry (job : ImportJob) : JobEntry := ⟨job, jobSettingsSummary job⟩

/-- A button of a job's fragment. -/
inductive JobButton where
  | abort
  | decision (answer : ImportDecision)
deriving Repr, DecidableEq

/-- What `import_job.html` puts below the summary line. -/
inductive JobControls where
  | abort
  | chooser (request : DecisionRequest)
  | applying
  | failure (error : String)
  | bare
deriving Repr, DecidableEq

/-- The rendered `import_job.html`. -/
structure JobFragment where
  jobId : JobId
  polling : Bool
  sourceLabel : String
  status : ImportJobStatus
  settingsSummary : String
  output : String
  controls : JobControls
deriving Repr, DecidableEq

/-- `awaiting_answer`. -/
def ImportJob.awaitingAnswer (job : ImportJob) : Bool :=
  decide (job.status = .awaitingDecision) && !job.decisionSubmitted

/-- `polling`. -/
def ImportJob.polling (job : ImportJob) : Bool :=
  decide (job.status = .pending ∨ job.status = .running) ||
    (decide (job.status = .awaitingDecision) && job.decisionSubmitted)

/-- The branches of `import_job.html`, in its order. -/
def ImportJob.controls (job : ImportJob) : JobControls :=
  if job.status = .pending ∨ job.status = .running then .abort
  else
    match job.pendingDecision.filter fun _ => job.awaitingAnswer with
    | some request => .chooser request
    | none =>
        if job.status = .awaitingDecision then .applying
        else
          match job.error.filter (· ≠ "") with
          | some error => .failure error
          | none => .bare

/-- `_render_job`. -/
def renderJob (entry : JobEntry) : JobFragment where
  jobId := entry.job.id
  polling := entry.job.polling
  sourceLabel := entry.job.sourceLabel
  status := entry.job.status
  settingsSummary := entry.settingsSummary
  output := orText (entry.job.output.getD "") "(no output yet.)"
  controls := entry.job.controls

/-- The fragment of a job as it is now. -/
def ImportJob.fragment (job : ImportJob) : JobFragment :=
  renderJob (jobEntry job)

/-- The buttons a fragment has: one for each row of the candidate table, and
two that are always there. -/
def JobControls.buttons : JobControls → List JobButton
  | .abort => [.abort]
  | .chooser request =>
      (applyButtons request ++ [ImportAction.asis, .skip].map fun action =>
        ImportDecision.mk action none (some request.serial)).map .decision
  | _ => []

/-- The statement `import_job_abort` or `import_job_decision` issues for a
button of a job. -/
def JobButton.statement (jobId : JobId) : JobButton → JobStatement
  | .abort => .requestAbort jobId
  | .decision answer => .submitDecision jobId answer

/-- `import_active_list`. -/
def importActiveList (jobs : List ImportJob) : List JobEntry :=
  ((jobs.filter fun job =>
    decide (job.status ∈ ImportJobStatus.abortable)).reverse).map jobEntry

/-- What a button has written once it has got through. -/
def JobButton.Stored (store : ImportStore) (jobId : JobId) : JobButton → Prop
  | .abort => store.isAbortRequested jobId = true
  | .decision answer => store.submittedDecision jobId = some answer

/-- Whose turn a fragment shows it to be: it polls while the processes are to
act, offers an answer while the user is, and rests when the job has ended. -/
structure JobFragment.ShowsTurn (fragment : JobFragment) : Prop where
  polls : fragment.polling = true ↔
    fragment.controls = .abort ∨ fragment.controls = .applying
  asks : (∃ request, fragment.controls = .chooser request) ↔
    fragment.polling = false ∧
      fragment.status ∉ ImportJobStatus.terminal
  rests : fragment.polling = false ∧ fragment.controls.buttons = [] ↔
    fragment.status ∈ ImportJobStatus.terminal

/-- Every button of the job's fragment gets through, and the fragment that is
rendered next polls. -/
def ButtonsWork (store : ImportStore) (job : ImportJob) : Prop :=
  ∀ button ∈ job.fragment.controls.buttons,
    let update := (button.statement job.id).update
    store.affectedRows update = 1 ∧
      button.Stored (store.execute update) job.id ∧
      ∃ next, (store.execute update).get job.id = some next ∧
        next.fragment.polling = true

section Fragment

variable {job : ImportJob} {request : DecisionRequest}

theorem controls_of_busy
    (hbusy : job.status = .pending ∨ job.status = .running) :
    job.controls = .abort ∧ job.polling = true := by
  refine ⟨if_pos hbusy, ?_⟩
  rw [ImportJob.polling, decide_eq_true hbusy, Bool.true_or]

theorem controls_of_awaiting (hawaiting : job.status = .awaitingDecision)
    (hpending : job.pendingDecision = some request) :
    job.controls =
        (if job.decisionSubmitted then .applying else .chooser request) ∧
      job.polling = job.decisionSubmitted := by
  unfold ImportJob.controls ImportJob.awaitingAnswer ImportJob.polling
  cases job.decisionSubmitted <;>
    simp [hawaiting, hpending, Option.filter]

theorem controls_of_ended (hended : job.status ∈ ImportJobStatus.terminal) :
    (job.controls = .bare ∨ ∃ error, job.controls = .failure error) ∧
      job.polling = false := by
  rw [ImportJobStatus.mem_terminal_iff] at hended
  simp only [ImportJobStatus.abortable, ImportJobStatus.active,
    List.mem_cons, List.not_mem_nil, or_false, not_or] at hended
  obtain ⟨hpending, hrunning, hawaiting⟩ := hended
  unfold ImportJob.controls ImportJob.awaitingAnswer ImportJob.polling
  cases job.error.filter (· ≠ "") with
  | none => simp [hpending, hrunning, hawaiting]
  | some error => simp [hpending, hrunning, hawaiting]

theorem ImportJobStatus.cases_turn (status : ImportJobStatus) :
    (status = .pending ∨ status = .running) ∨ status = .awaitingDecision ∨
      status ∈ terminal := by
  cases status <;> decide

theorem controls_eq_chooser_iff :
    job.controls = .chooser request ↔
      job.status = .awaitingDecision ∧ job.decisionSubmitted = false ∧
        job.pendingDecision = some request := by
  constructor
  · intro hchooser
    unfold ImportJob.controls at hchooser
    split at hchooser
    · cases hchooser
    · split at hchooser
      · rename_i found hfound
        cases hchooser
        obtain ⟨hpending, hanswer⟩ := Option.filter_eq_some_iff.mp hfound
        simp only [ImportJob.awaitingAnswer, Bool.and_eq_true,
          decide_eq_true_eq, Bool.not_eq_true'] at hanswer
        exact ⟨hanswer.1, hanswer.2, hpending⟩
      · split at hchooser
        · cases hchooser
        · split at hchooser <;> cases hchooser
  · rintro ⟨hawaiting, hopen, hpending⟩
    rw [(controls_of_awaiting hawaiting hpending).1, hopen]
    rfl

theorem controls_eq_abort_iff :
    job.controls = .abort ↔
      job.status = .pending ∨ job.status = .running := by
  refine ⟨fun habort => ?_, fun hbusy => (controls_of_busy hbusy).1⟩
  by_contra hidle
  unfold ImportJob.controls at habort
  rw [if_neg hidle] at habort
  split at habort
  · cases habort
  · split at habort
    · cases habort
    · split at habort <;> cases habort

/-- The row behind a chooser takes an answer. -/
theorem open_of_chooser {row : ImportJobRecord}
    (hchooser : row.toView.controls = .chooser request) :
    row.status = .awaitingDecision ∧ row.submittedDecision = none ∧
      row.pendingDecision = some request := by
  obtain ⟨hawaiting, hsubmitted, hpending⟩ :=
    controls_eq_chooser_iff.mp hchooser
  exact ⟨hawaiting, Option.isNone_iff_eq_none.mp
    (Option.isSome_eq_false_iff.mp hsubmitted), hpending⟩

/-- A parked job carries the request its page is to show. -/
theorem showsTurn_of_parked (hparked : job.status = .awaitingDecision →
    job.pendingDecision.isSome = true) : job.fragment.ShowsTurn := by
  rcases job.status.cases_turn with hbusy | hawaiting | hended
  · obtain ⟨hcontrols, hpolls⟩ := controls_of_busy hbusy
    have hlive : job.status ∉ ImportJobStatus.terminal := by
      rcases hbusy with hstatus | hstatus <;> rw [hstatus] <;> decide
    constructor <;>
      simp [ImportJob.fragment, renderJob, jobEntry, hcontrols, hpolls, hlive]
  · obtain ⟨request, hpending⟩ := Option.isSome_iff_exists.mp
      (hparked hawaiting)
    obtain ⟨hcontrols, hpolls⟩ := controls_of_awaiting hawaiting hpending
    have hlive : job.status ∉ ImportJobStatus.terminal := by
      rw [hawaiting]
      decide
    cases hsubmitted : job.decisionSubmitted <;>
      rw [hsubmitted] at hcontrols hpolls <;> constructor <;>
      simp [ImportJob.fragment, renderJob, jobEntry, hcontrols, hpolls, hlive,
        JobControls.buttons]
  · obtain ⟨hcontrols, hpolls⟩ := controls_of_ended hended
    rcases hcontrols with hcontrols | ⟨error, hcontrols⟩ <;>
      constructor <;>
      simp [ImportJob.fragment, renderJob, jobEntry, hcontrols, hpolls, hended,
        JobControls.buttons]

end Fragment

section Press

variable {store : ImportStore} {row : ImportJobRecord}

theorem ImportStore.job?_execute_of_job? {update : JobUpdate}
    (hrow : store.job? row.id = some row) :
    (store.execute update).job? row.id = some (update.onRow row) := by
  rw [ImportStore.job?_execute, hrow, Option.map_some]

/-- An Abort button is there while the job can be aborted. -/
theorem abort_works (hrow : store.job? row.id = some row)
    (hbusy : row.status = .pending ∨ row.status = .running) :
    store.affectedRows (requestAbort row.id) = 1 ∧
      (store.execute (requestAbort row.id)).job? row.id =
        some { row with abortRequested := true } := by
  have habortable : row.status ∈ ImportJobStatus.abortable := by
    rcases hbusy with hstatus | hstatus <;> rw [hstatus] <;> decide
  refine ⟨ImportStore.affectedRows_requestAbort.mpr
    ⟨row, hrow, habortable⟩, ?_⟩
  rw [ImportStore.job?_execute_of_job? hrow, requestAbort_onRow rfl,
    if_pos habortable]

/-- The buttons of a chooser are there while an answer is accepted. -/
theorem answer_works (hrow : store.job? row.id = some row)
    (hawaiting : row.status = .awaitingDecision)
    (hopen : row.submittedDecision = none) (answer : ImportDecision) :
    store.affectedRows (submitDecision row.id answer) = 1 ∧
      (store.execute (submitDecision row.id answer)).job? row.id =
        some { row with submittedDecision := some answer } := by
  refine ⟨ImportStore.affectedRows_submitDecision.mpr
    ⟨row, hrow, hawaiting, hopen⟩, ?_⟩
  rw [ImportStore.job?_execute_of_job? hrow, submitDecision_onRow rfl,
    if_pos ⟨hawaiting, hopen⟩]

theorem mem_buttons_cases {job : ImportJob} {button : JobButton}
    (hbutton : button ∈ job.fragment.controls.buttons) :
    (button = .abort ∧ (job.status = .pending ∨ job.status = .running)) ∨
      ∃ request answer, button = .decision answer ∧
        job.controls = .chooser request := by
  change button ∈ job.controls.buttons at hbutton
  cases hcontrols : job.controls with
  | abort =>
      rw [hcontrols] at hbutton
      exact Or.inl ⟨List.mem_singleton.mp hbutton,
        controls_eq_abort_iff.mp hcontrols⟩
  | chooser request =>
      rw [hcontrols] at hbutton
      obtain ⟨answer, _, rfl⟩ := List.mem_map.mp hbutton
      exact Or.inr ⟨request, answer, rfl, rfl⟩
  | applying => rw [hcontrols] at hbutton; cases hbutton
  | failure error => rw [hcontrols] at hbutton; cases hbutton
  | bare => rw [hcontrols] at hbutton; cases hbutton

theorem buttonsWork_of_get {job : ImportJob}
    (hget : store.get job.id = some job) : ButtonsWork store job := by
  obtain ⟨row, hjob, rfl, -⟩ := ImportStore.get_eq_some hget
  have hrow : store.job? row.id = some row := hjob
  intro button hbutton
  rcases mem_buttons_cases hbutton with ⟨rfl, hbusy⟩ |
    ⟨request, answer, rfl, hchooser⟩
  · obtain ⟨haffected, hafter⟩ := abort_works hrow hbusy
    refine ⟨haffected, ?_, _, congrArg (Option.map _) hafter, ?_⟩
    · change ((store.execute (requestAbort row.id)).job? row.id).any
        ImportJobRecord.abortRequested = true
      rw [hafter]
      rfl
    · exact (controls_of_busy hbusy).2
  · obtain ⟨hawaiting, hopen, hpending⟩ := open_of_chooser hchooser
    obtain ⟨haffected, hafter⟩ := answer_works hrow hawaiting hopen answer
    refine ⟨haffected, ?_, _, congrArg (Option.map _) hafter, ?_⟩
    · change ((store.execute (submitDecision row.id answer)).job?
        row.id).bind ImportJobRecord.submittedDecision = some answer
      rw [hafter]
      rfl
    · exact (@controls_of_awaiting (ImportJobRecord.toView
        { row with submittedDecision := some answer }) request hawaiting
        hpending).2

end Press

/-- The request a statement parks a job on. -/
def JobStatement.publishes? : JobStatement → Option DecisionRequest
  | .setAwaiting request => some request
  | _ => none

def StoreAction.publishes? : StoreAction → Option DecisionRequest
  | .issue _ statement => statement.publishes?
  | _ => none

/-- The request, where a row still carries it, has been answered. -/
def ImportJobRecord.answered (request : DecisionRequest)
    (row : ImportJobRecord) : Prop :=
  row.pendingDecision = some request → row.submittedDecision.isSome = true

/-- No answer to the row is accepted. -/
def ImportJobRecord.closed (row : ImportJobRecord) : Prop :=
  row.status = .awaitingDecision → row.submittedDecision.isSome = true

theorem affectedRows_of_closed {store : ImportStore} {jobId : JobId}
    (hclosed : ∀ row, store.job? jobId = some row → row.closed)
    (answer : ImportDecision) :
    store.affectedRows (submitDecision jobId answer) = 0 := by
  unfold ImportStore.affectedRows submitDecision
  rw [KeyedTable.affected_key]
  cases hrow : store.jobs.get? jobId with
  | none => rfl
  | some row =>
      by_cases hawaiting : row.status = .awaitingDecision
      · simp [Option.isNone_eq_false_iff.mpr (hclosed row hrow hawaiting)]
      · simp [hawaiting]

theorem onRow_answered {statement : JobStatement} {row : ImportJobRecord}
    {request : DecisionRequest} (hanswered : row.answered request)
    (hfresh : statement.publishes? ≠ some request) :
    (statement.update.onRow row).answered request := by
  unfold JobUpdate.onRow
  split
  · cases statement with
    | setStatus jobId outcome error => exact nofun
    | setAwaiting other =>
        intro hpending
        exact absurd hpending hfresh
    | takeDecision jobId => exact nofun
    | recoverOrphans worker => exact nofun
    | submitDecision jobId decision => exact fun _ => rfl
    | claimSelected jobId worker => exact hanswered
    | setOutput jobId output => exact hanswered
    | requestAbort jobId => exact hanswered
  · exact hanswered

theorem onRow_closed {statement : JobStatement} {row : ImportJobRecord}
    (hclosed : row.closed)
    (hquiet : ∀ request ∈ statement.publishes?, request.jobId ≠ row.id) :
    (statement.update.onRow row).closed := by
  unfold JobUpdate.onRow
  split
  · rename_i happlies
    cases statement with
    | setStatus jobId outcome error =>
        intro hawaiting
        cases outcome <;> cases hawaiting
    | setAwaiting request =>
        exact absurd (of_decide_eq_true happlies).symm (hquiet request rfl)
    | takeDecision jobId => exact nofun
    | recoverOrphans worker => exact nofun
    | submitDecision jobId decision => exact fun _ => rfl
    | claimSelected jobId worker => exact nofun
    | setOutput jobId output => exact hclosed
    | requestAbort jobId => exact hclosed
  · exact hclosed

namespace StoreProcesses

/-- Where a row comes from: it is new, or the old row with at most one
statement carried out on it. -/
theorem step_origin {before after : StoreProcesses} {action : StoreAction}
    (hstep : before.step action = some after) {jobId : JobId}
    {row : ImportJobRecord} (hrow : after.store.job? jobId = some row) :
    (∃ settings now, row = JobSettings.newRecord settings jobId now) ∨
    ∃ old, before.store.job? jobId = some old ∧
      (row = old ∨ ∃ statement : JobStatement,
        statement.publishes? = action.publishes? ∧
          row = statement.update.onRow old) := by
  rcases step_job? hstep jobId with hsame | ⟨_, statement, rfl, _, hset⟩ |
    ⟨worker, chosen, rfl, _, hset⟩ | ⟨now, settings, rfl, _, hnew⟩
  · exact Or.inr ⟨row, hsame.symm.trans hrow, Or.inl rfl⟩
  · obtain ⟨old, hold, rfl⟩ :=
      Option.map_eq_some_iff.mp (hset.symm.trans hrow)
    exact Or.inr ⟨old, hold, Or.inr ⟨statement, rfl, rfl⟩⟩
  · obtain ⟨old, hold, rfl⟩ :=
      Option.map_eq_some_iff.mp (hset.symm.trans hrow)
    exact Or.inr ⟨old, hold, Or.inr
      ⟨.claimSelected chosen worker, rfl, rfl⟩⟩
  · exact Or.inl ⟨settings, now, Option.some.inj (hrow.symm.trans hnew)⟩

/-- What every new row has, and every statement that may be issued keeps,
holds of a job's row to the end of a run. -/
theorem row_of_exec {P : ImportJobRecord → Prop}
    (allowed : Option DecisionRequest → Prop) {jobId : JobId}
    (hnew : ∀ settings now, P (JobSettings.newRecord settings jobId now))
    (hset : ∀ (statement : JobStatement) (row : ImportJobRecord),
      row.id = jobId → P row → allowed statement.publishes? →
      P (statement.update.onRow row))
    {before after : StoreProcesses} {actions : List StoreAction}
    (hbefore : ∀ row, before.store.job? jobId = some row → P row)
    (hallowed : ∀ action ∈ actions, allowed action.publishes?)
    (hexec : exec step before actions = some after) :
    ∀ row, after.store.job? jobId = some row → P row := by
  have hkeep : ∀ (middle : StoreProcesses) (action : StoreAction)
      (next : StoreProcesses),
      (∀ row, middle.store.job? jobId = some row → P row) →
      allowed action.publishes? → middle.step action = some next →
      ∀ row, next.store.job? jobId = some row → P row := by
    intro middle action next hrows hok hstep row hrow
    rcases step_origin hstep hrow with ⟨settings, now, rfl⟩ |
      ⟨old, hold, rfl | ⟨statement, hpublishes, rfl⟩⟩
    · exact hnew settings now
    · exact hrows row hold
    · exact hset statement old (ImportStore.job?_id hold) (hrows old hold)
        (hpublishes ▸ hok)
  exact invariant_of_admitted hkeep hbefore
    (admitted_of_forall before hallowed) hexec

theorem parked_of_exec {actions : List StoreAction} {procs : StoreProcesses}
    (hexec : exec step initial actions = some procs) {jobId : JobId}
    {row : ImportJobRecord} (hrow : procs.store.job? jobId = some row) :
    row.parked := by
  refine row_of_exec (fun _ => True) (fun settings now => ?_)
    (fun _ _ _ hparked _ => onRow_parked hparked) (fun row hnone => ?_)
    (fun _ _ => trivial) hexec row hrow
  · intro hawaiting
    cases hawaiting
  · cases hnone

/-- The list of the jobs at any moment holds exactly those that have not ended,
newest first and once each; every job's fragment shows whose turn it is, and
its buttons get through. -/
theorem active_list_is_live (actions : List StoreAction)
    (procs : StoreProcesses) (hexec : exec step initial actions = some procs)
    (records : List ImportJobRecord) (hlists : procs.store.Lists records) :
    let shown := (importActiveList (jobViews records)).map JobEntry.job
    shown.Pairwise (fun job earlier => earlier.createdAt ≤ job.createdAt) ∧
      (shown.map ImportJob.id).Nodup ∧
      (∀ job, job ∈ shown ↔ procs.store.get job.id = some job ∧
        job.status ∉ ImportJobStatus.terminal) ∧
      ∀ job, procs.store.get job.id = some job →
        job.fragment.ShowsTurn ∧ ButtonsWork procs.store job := by
  intro shown
  have hshown : shown = ((jobViews records).filter fun job =>
      decide (job.status ∈ ImportJobStatus.abortable)).reverse := by
    change (List.map jobEntry _).map JobEntry.job = _
    rw [List.map_map]
    exact List.map_id _
  have hget : ∀ job, job ∈ jobViews records ↔
      procs.store.get job.id = some job := by
    intro job
    rw [jobViews, List.mem_map]
    constructor
    · rintro ⟨row, hrow, rfl⟩
      have hjob : procs.store.job? row.id = some row :=
        KeyedTable.get?_eq_some_iff.mpr ⟨hlists.rows.mem_iff.mp hrow, rfl⟩
      exact congrArg (Option.map ImportJobRecord.toView) hjob
    · intro hjob
      obtain ⟨row, hrow, hview, -⟩ := ImportStore.get_eq_some hjob
      exact ⟨row, hlists.rows.mem_iff.mpr
        (KeyedTable.get?_eq_some_iff.mp hrow).1, hview.symm⟩
  have hmem : ∀ job, job ∈ shown ↔ procs.store.get job.id = some job ∧
      job.status ∉ ImportJobStatus.terminal := by
    intro job
    rw [hshown, List.mem_reverse, List.mem_filter, hget, decide_eq_true_eq,
      ImportJobStatus.mem_terminal_iff, not_not]
  refine ⟨?_, ?_, hmem, fun job hnow => ?_⟩
  · rw [hshown, List.pairwise_reverse]
    refine List.Pairwise.filter _ ?_
    rw [jobViews, List.pairwise_map]
    exact hlists.sorted
  · rw [hshown, List.map_reverse, List.nodup_reverse]
    refine List.Nodup.sublist (List.filter_sublist.map _) ?_
    rw [jobViews, List.map_map]
    exact (hlists.rows.map _).nodup_iff.mpr procs.store.jobs.keys_nodup
  · obtain ⟨row, hrow, rfl, -⟩ := ImportStore.get_eq_some hnow
    exact ⟨showsTurn_of_parked (parked_of_exec hexec hrow),
      buttonsWork_of_get hnow⟩

/-- Job 7 asks its user while job 8 waits and job 9 has ended. -/
def askingUser (request : DecisionRequest) : List StoreAction :=
  [.create 9 0 (.ofPaths []), .create 7 1 (.ofPaths []),
    .create 8 2 (.ofPaths []), .select 0 9, .claim 0,
    .issue 0 (.setStatus 9 .completed none), .select 0 7, .claim 0,
    .issue 0 (.setAwaiting request)]

def firstPrompt : DecisionRequest :=
  ⟨7, "task", "Choose a match", [⟨0, "Geogaddi"⟩], [.apply, .asis, .skip], 0⟩

theorem active_list_is_live_asking :
    let procs := stateAfter (askingUser firstPrompt)
    let shown := (importActiveList
      (jobViews procs.store.jobs.rows)).map JobEntry.job
    shown.Pairwise (fun job earlier => earlier.createdAt ≤ job.createdAt) ∧
      (shown.map ImportJob.id).Nodup ∧
      (∀ job, job ∈ shown ↔ procs.store.get job.id = some job ∧
        job.status ∉ ImportJobStatus.terminal) ∧
      ∀ job, procs.store.get job.id = some job →
        job.fragment.ShowsTurn ∧ ButtonsWork procs.store job :=
  active_list_is_live (askingUser firstPrompt) _ rfl _
    ⟨List.Perm.refl _, by decide⟩

/-- A prompt that was answered, by whichever page or client, is not shown
again; until the job asks anew, no further answer is accepted. -/
theorem answered_prompt_is_not_shown_again (before pressed : StoreProcesses)
    (job : ImportJob) (request : DecisionRequest)
    (hget : before.store.get job.id = some job)
    (hshown : job.fragment.controls = .chooser request)
    (process : WorkerId) (answer : ImportDecision)
    (hpress : before.step (.issue process
      (.submitDecision job.id answer)) = some pressed)
    (later : List StoreAction) (after : StoreProcesses)
    (hexec : exec step pressed later = some after) :
    ((∀ action ∈ later, action.publishes? ≠ some request) →
      ∀ next, after.store.get job.id = some next →
        next.fragment.controls ≠ .chooser request) ∧
    ((∀ action ∈ later, ∀ other ∈ action.publishes?,
        other.jobId ≠ job.id) →
      ∀ late, after.store.affectedRows (submitDecision job.id late) = 0) := by
  obtain ⟨row, hjob, rfl, -⟩ := ImportStore.get_eq_some hget
  have hrow : before.store.job? row.id = some row := hjob
  obtain ⟨hawaiting, hopen, _⟩ := open_of_chooser hshown
  obtain rfl := Option.some.inj hpress
  have hstored : ∀ stored, (before.store.execute
      (submitDecision row.id answer)).job? row.id = some stored →
      stored.submittedDecision.isSome = true := by
    intro stored hstored
    rw [(answer_works hrow hawaiting hopen answer).2] at hstored
    obtain rfl := Option.some.inj hstored
    rfl
  constructor
  · intro hfresh next hnext hchooser
    obtain ⟨last, hlast, rfl, -⟩ := ImportStore.get_eq_some hnext
    have hanswered : last.answered request :=
      row_of_exec (· ≠ some request) (fun _ _ => nofun)
        (fun _ _ _ hkept hother => onRow_answered hkept hother)
        (fun stored hjob _ => hstored stored hjob) hfresh hexec last hlast
    obtain ⟨_, hunanswered, hpending⟩ := controls_eq_chooser_iff.mp hchooser
    exact Bool.false_ne_true (hunanswered.symm.trans (hanswered hpending))
  · intro hquiet late
    exact affectedRows_of_closed
      (row_of_exec
        (fun published => ∀ other ∈ published, other.jobId ≠ row.id)
        (fun _ _ => nofun)
        (fun _ _ hid hkept hother => onRow_closed hkept (hid ▸ hother))
        (fun stored hjob _ => hstored stored hjob) hquiet hexec) late

/-- A second client answers too late, and the worker takes the first
answer. -/
def afterAnswer : List StoreAction :=
  [.issue 5 (.submitDecision 7 ⟨.skip, none, some 0⟩),
    .issue 0 (.takeDecision 7)]

theorem answered_prompt_is_not_shown_again_taken :
    let before := stateAfter (askingUser firstPrompt)
    let press := StoreAction.issue 4
      (.submitDecision 7 ⟨.apply, some 0, some 0⟩)
    ∃ pressed after, before.step press = some pressed ∧
      exec step pressed afterAnswer = some after ∧
      (∀ next, after.store.get 7 = some next →
        next.fragment.controls ≠ .chooser firstPrompt) ∧
      ∀ late, after.store.affectedRows (submitDecision 7 late) = 0 := by
  intro before press
  obtain ⟨job, hget⟩ : ∃ job, before.store.get 7 = some job := ⟨_, rfl⟩
  have hid : job.id = 7 := by cases hget; rfl
  have hshown : job.fragment.controls = .chooser firstPrompt := by
    cases hget; rfl
  have hboth := answered_prompt_is_not_shown_again before _ job firstPrompt
    (hid ▸ hget) hshown 4 ⟨.apply, some 0, some 0⟩ rfl afterAnswer _ rfl
  rw [hid] at hboth
  exact ⟨_, _, rfl, rfl, hboth.1 (by decide), hboth.2 (by decide)⟩

end StoreProcesses

end Beetkeeper
