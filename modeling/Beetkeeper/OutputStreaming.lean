/-
What the output column of a job shows while the job runs and after it.  Lines
reach the buffer from the threads of the import; the column is written by the
periodic flush, from a snapshot, and by the terminal write.  Every line ever
appended is recorded beside the run and compared with the column.
-/
import Beetkeeper.PyText
import Beetkeeper.FinalStatus

namespace Beetkeeper

open Transition

variable {W : Type}

/-- The lines a step of a running job appends to its output. -/
def RunAction.lines : RunAction → List String
  | .narrate lines => lines
  | .extendLines lines => lines.map fun line => s!"  {line}"
  | _ => []

/-- The job whose output a step appends to, and the lines. -/
def System.appends? (system : System W) :
    Action W → Option (JobId × List String)
  | .run worker action =>
      (system.workers worker).phase.job?.map fun jobId => (jobId, action.lines)
  | .loop worker .conclude =>
      match (system.workers worker).phase with
      | .concluding jobId _ none =>
          if system.store.isAbortRequested jobId then
            some (jobId, ["Import aborted."])
          else some (jobId, ["Import completed."])
      | .concluding jobId _ (some message) =>
          some (jobId, [s!"Import failed: {message}"])
      | _ => none
  | .loop worker (.fault message) =>
      match (system.workers worker).phase with
      | .concluding jobId _ none =>
          some (jobId, [s!"Import failed: {message}"])
      | _ => none
  | _ => none

/-- The lines a step appends to the output of this job. -/
def System.appendedLines (system : System W) (action : Action W)
    (jobId : JobId) : List String :=
  match system.appends? action with
  | some (target, lines) => if target = jobId then lines else []
  | none => []

/-- The terminal status a step of `_finalize_job` writes. -/
def System.finalizes? (system : System W) :
    Action W → Option (JobId × JobOutcome)
  | .loop worker .writeStatus =>
      match (system.workers worker).phase with
      | .finalizing jobId _ outcome _ _ true => some (jobId, outcome)
      | _ => none
  | _ => none

/-- Every line appended to a job's output so far, and the jobs that were
finalised. -/
structure OutputHistory where
  appended : JobId → List String
  finalized : List (JobId × JobOutcome)

def OutputHistory.empty : OutputHistory := ⟨fun _ => [], []⟩

def noteOutput (system : System W) (action : Action W)
    (history : OutputHistory) : OutputHistory where
  appended jobId :=
    history.appended jobId ++ system.appendedLines action jobId
  finalized := history.finalized ++ (system.finalizes? action).toList

@[simp] theorem noteOutput_appended (system : System W) (action : Action W)
    (history : OutputHistory) (jobId : JobId) :
    (noteOutput system action history).appended jobId =
      history.appended jobId ++ system.appendedLines action jobId := rfl

@[simp] theorem mem_noteOutput_finalized {system : System W}
    {action : Action W} {history : OutputHistory} {jobId : JobId}
    {outcome : JobOutcome} :
    (jobId, outcome) ∈ (noteOutput system action history).finalized ↔
      (jobId, outcome) ∈ history.finalized ∨
        system.finalizes? action = some (jobId, outcome) := by
  simp [noteOutput]

/-- The system beside the history of its outputs. -/
def outputStep (host : Host W) :
    System W × OutputHistory → Action W → Option (System W × OutputHistory) :=
  recording (System.step host) noteOutput

/-- Every run of the system has its output history. -/
theorem runFrom_iff_outputStep {host : Host W} {world : W}
    {actions : List (Action W)} {system : System W}
    {history : OutputHistory} :
    System.runFrom host world actions = some system ↔
      ∃ last, exec (outputStep host) (System.initial world, history)
        actions = some (system, last) :=
  exec_recording_iff.symm

/-- A job that was finalised shows its terminal status and the text of all
its lines. -/
def OutputComplete (state : System W × OutputHistory) : Prop :=
  ∀ jobId outcome, (jobId, outcome) ∈ state.2.finalized →
    ∃ row, state.1.store.job? jobId = some row ∧
      row.status = outcome.status ∧
      row.output = some ("\n".intercalate (state.2.appended jobId))

/-- The text is the beginning of what the column shows. -/
def Shows (output : Option String) (text : String) : Prop :=
  ∃ shown, output = some shown ∧ PyText.IsPrefix text shown

/-- What was shown is still shown, and more may follow it. -/
def OutputExtends (before after : System W) : Prop :=
  ∀ jobId row text, before.store.job? jobId = some row →
    row.output = some text →
    ∃ kept, after.store.job? jobId = some kept ∧ Shows kept.output text

/-- What the column shows, if anything, is the beginning of the text. -/
def Within (output : Option String) (text : String) : Prop :=
  ∀ shown, output = some shown → PyText.IsPrefix shown text

/-- How a job's buffer, where its worker stands, and the column are related:
the buffer holds every line, and the column is behind the snapshot in flight,
which is behind the buffer. -/
def Phase.Streams (appended : List String) (output : Option String) :
    Phase → Prop
  | .claimed _ => appended = [] ∧ output = none
  | .running run => run.output.lines = appended ∧
      Within output run.output.text ∧
      ∀ version text, run.flushing = some (version, text) →
        Within output text ∧ PyText.IsPrefix text run.output.text
  | .concluding _ buffer _ =>
      buffer.lines = appended ∧ Within output buffer.text
  | .finalizing _ buffer _ _ _ written => buffer.lines = appended ∧
      Within output buffer.text ∧
      (written = true → output = some buffer.text)
  | _ => True

theorem Within.trans {output : Option String} {text more : String}
    (hwithin : Within output text) (hbegins : PyText.IsPrefix text more) :
    Within output more :=
  fun shown hshown => (hwithin shown hshown).trans hbegins

theorem within_self (text : String) : Within (some text) text := by
  intro shown hshown
  rw [Option.some.inj hshown]
  exact PyText.isPrefix_refl shown

theorem Within.shows {output : Option String} {text shown : String}
    (hwithin : Within output text) (hshown : output = some shown) :
    Shows (some text) shown :=
  ⟨text, rfl, hwithin shown hshown⟩

namespace OutputBuffer

theorem lines_foldl_append (lines : List String) (buffer : OutputBuffer) :
    (lines.foldl append buffer).lines = buffer.lines ++ lines := by
  induction lines generalizing buffer with
  | nil => simp
  | cons line rest ih =>
      rw [List.foldl_cons, ih, append, List.append_assoc, List.singleton_append]

/-- A buffer that has only grown begins with its earlier text. -/
theorem isPrefix_text {earlier later : OutputBuffer} {more : List String}
    (hgrown : later.lines = earlier.lines ++ more) :
    PyText.IsPrefix earlier.text later.text := by
  rw [text, text, hgrown]
  exact PyText.isPrefix_intercalate _ _ _

end OutputBuffer

/-- The text a statement writes to an output column. -/
def Statement.writesOutput? : Statement → Option (JobId × String)
  | .job (.setOutput jobId text) => some (jobId, text)
  | _ => none

/-- A job's column after the statement. -/
def Statement.outputAfter (statement : Statement) (jobId : JobId)
    (output : Option String) : Option String :=
  match statement.writesOutput? with
  | some (target, text) => if target = jobId then some text else output
  | none => output

theorem onRow_outputAfter (statement : JobStatement) (row : ImportJobRecord) :
    (statement.update.onRow row).output =
      (Statement.job statement).outputAfter row.id row.output := by
  unfold JobUpdate.onRow
  cases statement with
  | setOutput jobId text =>
      simp only [JobStatement.update, setOutput, decide_eq_true_eq,
        Statement.outputAfter, Statement.writesOutput?]
      by_cases hid : row.id = jobId
      · rw [if_pos hid, if_pos hid.symm]
      · rw [if_neg hid, if_neg (Ne.symm hid)]
  | _ => split <;> rfl

theorem Statement.onRow_outputAfter (statement : Statement)
    (row : ImportJobRecord) :
    (statement.onRow row).output =
      statement.outputAfter row.id row.output := by
  cases statement with
  | job statement => exact Beetkeeper.onRow_outputAfter statement row
  | _ => rfl

/-- How a step of a running job treats the snapshot in flight, and the text
it writes. -/
inductive FlushStep (run : RunState) :
    Option (Nat × String) → Option (JobId × String) → Prop where
  | keep : FlushStep run run.flushing none
  | snapshot :
      FlushStep run (some (run.output.version, run.output.text)) none
  | write {version text} (hflushing : run.flushing = some (version, text)) :
      FlushStep run none (some (run.job.id, text))
  | drop : FlushStep run none none

theorem runMove_output {host : Host W} {system : System W}
    {worker : WorkerId} {run : RunState} {action : RunAction} {move : Move W}
    (hmove : system.runMove host worker run action = some move) :
    (∃ next, move.phase = .running next ∧
      next.output.lines = run.output.lines ++ action.lines ∧
      FlushStep run next.flushing move.statement.writesOutput?) ∨
    (∃ failure, move.phase = .concluding run.job.id run.output failure ∧
      action.lines = [] ∧ move.statement.writesOutput? = none) := by
  unfold System.runMove at hmove
  split at hmove
  all_goals repeat' split at hmove
  all_goals cases hmove
  all_goals first
    | exact Or.inr ⟨_, rfl, rfl, rfl⟩
    | refine Or.inl ⟨_, rfl, ?_, ?_⟩
  all_goals first
    | exact .keep
    | exact .snapshot
    | exact .write (by assumption)
    | exact .drop
    | exact (List.append_nil _).symm
    | exact OutputBuffer.lines_foldl_append _ _
    | rfl

/-- A step of a running job keeps its buffer complete and the column behind
it. -/
theorem streams_run {host : Host W} {system : System W}
    {worker : WorkerId} {run : RunState} {action : RunAction} {move : Move W}
    (hphase : (system.workers worker).phase = .running run)
    (hmove : system.runMove host worker run action = some move)
    {appended : List String} {output : Option String}
    (hstreams : (Phase.running run).Streams appended output) :
    move.phase.Streams
      (appended ++ system.appendedLines (.run worker action) run.job.id)
      (move.statement.outputAfter run.job.id output) := by
  obtain ⟨hlines, hwithin, hsnapshot⟩ := hstreams
  have happended : system.appendedLines (.run worker action) run.job.id =
      action.lines := by
    simp [System.appendedLines, System.appends?, hphase, Phase.job?]
  rw [happended, Statement.outputAfter]
  rcases runMove_output hmove with ⟨next, hnext, hgrown, hflush⟩ |
    ⟨failure, hnext, hnone, hread⟩
  · have hbegins := OutputBuffer.isPrefix_text hgrown
    rw [hnext, ← hlines]
    generalize move.statement.writesOutput? = written at hflush
    generalize hflushing : next.flushing = flushing at hflush
    cases hflush with
    | keep =>
        refine ⟨hgrown, hwithin.trans hbegins, fun version text htext => ?_⟩
        obtain ⟨hbehind, hbegun⟩ :=
          hsnapshot version text (hflushing.symm.trans htext)
        exact ⟨hbehind, hbegun.trans hbegins⟩
    | snapshot =>
        refine ⟨hgrown, hwithin.trans hbegins, fun version text htext => ?_⟩
        obtain ⟨_, rfl⟩ :=
          Prod.mk.inj (Option.some.inj (hflushing.symm.trans htext))
        exact ⟨hwithin, hbegins⟩
    | @write version text htaken =>
        obtain ⟨_, hbegun⟩ := hsnapshot version text htaken
        simp only [if_true]
        refine ⟨hgrown, (within_self text).trans (hbegun.trans hbegins),
          fun version text htext => ?_⟩
        rw [hflushing] at htext
        cases htext
    | drop =>
        refine ⟨hgrown, hwithin.trans hbegins, fun version text htext => ?_⟩
        rw [hflushing] at htext
        cases htext
  · rw [hnext, hnone, hread, List.append_nil]
    exact ⟨hlines, hwithin⟩

/-- The last line of a run, before its terminal write. -/
theorem streams_conclude {appended : List String} {output : Option String}
    {buffer : OutputBuffer} (jobId : JobId) (line : String)
    (outcome : JobOutcome) (error : Option String)
    (hstreams : buffer.lines = appended ∧ Within output buffer.text) :
    (Phase.finalizing jobId (buffer.append line) outcome error 1
      false).Streams (appended ++ [line]) output := by
  obtain ⟨rfl, hwithin⟩ := hstreams
  exact ⟨rfl, hwithin.trans (OutputBuffer.isPrefix_text rfl), nofun⟩

/-- A step of the loop around the task group does so too. -/
theorem streams_loop {system : System W} {worker : WorkerId}
    {action : LoopAction} {move : Move W}
    (hmove : system.loopMove worker action = some move) {jobId : JobId}
    (hjob : (system.workers worker).phase.job? = some jobId)
    (hkept : move.phase.job? = some jobId)
    {appended : List String} {output : Option String}
    (hstreams : (system.workers worker).phase.Streams appended output) :
    move.phase.Streams
      (appended ++ system.appendedLines (.loop worker action) jobId)
      (move.statement.outputAfter jobId output) := by
  unfold System.loopMove at hmove
  split at hmove <;> rename_i hphase <;>
    simp only [hphase, Phase.job?, reduceCtorEq, Option.some.injEq] at hjob
  all_goals repeat' split at hmove
  all_goals cases hmove
  all_goals cases hkept
  all_goals rw [hphase] at hstreams
  all_goals simp only [System.appendedLines, System.appends?, hphase]
  · -- the re-read starts the run with an empty buffer
    obtain ⟨rfl, rfl⟩ := hstreams
    exact ⟨rfl, by rintro _ ⟨⟩, by rintro _ _ ⟨⟩⟩
  · rename_i habort
    simp only [habort, if_true]
    exact streams_conclude jobId _ _ _ hstreams
  · rename_i habort
    simp only [habort, Bool.false_eq_true, if_false, if_true]
    exact streams_conclude jobId _ _ _ hstreams
  · simp only [if_true]
    exact streams_conclude jobId _ _ _ hstreams
  · simp only [List.append_nil, Statement.outputAfter,
      Statement.writesOutput?, if_true]
    exact ⟨hstreams.1, within_self _, fun _ => rfl⟩
  · simp only [if_true]
    exact streams_conclude jobId _ _ _ hstreams
  · rw [List.append_nil]
    exact ⟨hstreams.1, hstreams.2.1, by rintro ⟨⟩⟩

theorem loopMove_writesOutput {system : System W} {worker : WorkerId}
    {action : LoopAction} {move : Move W} {jobId : JobId} {text : String}
    (hmove : system.loopMove worker action = some move)
    (hwrites : move.statement.writesOutput? = some (jobId, text)) :
    ∃ buffer outcome error attempt, text = buffer.text ∧
      (system.workers worker).phase =
        .finalizing jobId buffer outcome error attempt false := by
  unfold System.loopMove at hmove
  split at hmove <;> rename_i hphase
  all_goals repeat' split at hmove
  all_goals cases hmove
  all_goals cases hwrites
  exact ⟨_, _, _, _, rfl, hphase⟩

/-- The column is behind whatever is written to it. -/
theorem within_written {host : Host W} {system : System W}
    {worker : WorkerId} {action : Action W} {move : Move W}
    (hmove : WorkerMove host system worker action move) {jobId : JobId}
    {text : String}
    (hwrites : move.statement.writesOutput? = some (jobId, text))
    {appended : List String} {output : Option String}
    (hstreams : (system.workers worker).phase.Streams appended output) :
    Within output text := by
  cases hmove with
  | loop hmove =>
      obtain ⟨buffer, _, _, _, rfl, hphase⟩ :=
        loopMove_writesOutput hmove hwrites
      rw [hphase] at hstreams
      exact hstreams.2.1
  | @run action run _ hphase hmove =>
      rw [hphase] at hstreams
      rcases runMove_output hmove with ⟨next, _, _, hflush⟩ |
        ⟨_, _, _, hread⟩
      · rw [hwrites] at hflush
        generalize next.flushing = flushing at hflush
        cases hflush with
        | write htaken => exact (hstreams.2.2 _ _ htaken).1
      · rw [hread] at hwrites
        cases hwrites

/-- Whoever appends to the output of a job holds it. -/
theorem appends?_holds {system : System W} {action : Action W}
    {jobId : JobId} {lines : List String}
    (happends : system.appends? action = some (jobId, lines)) :
    ∃ worker, action.worker? = some worker ∧
      (system.workers worker).phase.job? = some jobId := by
  unfold System.appends? at happends
  split at happends
  · obtain ⟨holder, hholder, hpair⟩ := Option.map_eq_some_iff.mp happends
    obtain ⟨rfl, _⟩ := Prod.mk.inj hpair
    exact ⟨_, rfl, hholder⟩
  · refine ⟨_, rfl, ?_⟩
    split at happends <;> rename_i hphase
    · split at happends <;> cases happends <;> rw [hphase] <;> rfl
    · cases happends
      rw [hphase]
      rfl
    · cases happends
  · refine ⟨_, rfl, ?_⟩
    split at happends <;> rename_i hphase
    · cases happends
      rw [hphase]
      rfl
    · cases happends
  · cases happends

theorem appendedLines_of_notHeldBy {system : System W} {action : Action W}
    {jobId : JobId} (hfree : system.NotHeldBy action jobId) :
    system.appendedLines action jobId = [] := by
  unfold System.appendedLines
  split
  · rename_i target lines happends
    obtain ⟨worker, hworker, hholds⟩ := appends?_holds happends
    refine if_neg fun hsame => ?_
    exact hfree worker hworker (hsame ▸ hholds)
  · rfl

/-- A step of somebody else leaves the column of a job as it is. -/
theorem output_of_notHeldBy {host : Host W} {system next : System W}
    {action : Action W} (hstep : system.step host action = some next)
    {jobId : JobId} (hfree : system.NotHeldBy action jobId)
    {row : ImportJobRecord} (hrow : next.store.job? jobId = some row) :
    (∃ old, system.store.job? jobId = some old ∧ row.output = old.output) ∨
      (system.store.job? jobId = none ∧ row.output = none) := by
  rcases step_job? hstep jobId with hsame | ⟨statement, hsends, hset⟩ |
    ⟨settings, _, hnone, hnew⟩
  · exact Or.inl ⟨row, hsame.symm.trans hrow, rfl⟩
  · obtain ⟨old, hold, rfl⟩ :=
      Option.map_eq_some_iff.mp (hset.symm.trans hrow)
    refine Or.inl ⟨old, hold, ?_⟩
    rw [onRow_outputAfter, ImportStore.job?_id hold]
    cases statement with
    | setOutput target text =>
        exact if_neg fun hsame =>
          hsends.not_byId hfree (congrArg some hsame)
    | _ => rfl
  · obtain rfl := Option.some.inj (hnew.symm.trans hrow)
    exact Or.inr ⟨hnone, rfl⟩

/-- What ties the columns to the lines that were appended. -/
structure Streamed (state : System W × OutputHistory) : Prop where
  owned : state.1.Owned
  held : ∀ worker jobId, (state.1.workers worker).phase.job? = some jobId →
    ∀ row, state.1.store.job? jobId = some row →
    (state.1.workers worker).phase.Streams (state.2.appended jobId) row.output
  fresh : ∀ jobId, (∀ row, state.1.store.job? jobId = some row →
    row.status = .pending) → state.2.appended jobId = []
  blank : ∀ jobId row, state.1.store.job? jobId = some row →
    row.status = .pending → row.output = none
  released : ∀ jobId outcome, (jobId, outcome) ∈ state.2.finalized →
    ∀ worker, (state.1.workers worker).phase.job? ≠ some jobId
  complete : OutputComplete state

theorem streamed_initial (world : W) :
    Streamed (System.initial world, OutputHistory.empty) where
  owned := owned_initial world
  held := by
    intro worker jobId hjob
    cases hjob
  fresh := fun _ _ => rfl
  blank := by
    intro jobId row hrow
    cases hrow
  released := by
    intro jobId outcome hfinal
    cases hfinal
  complete := by
    intro jobId outcome hfinal
    cases hfinal

section

variable {host : Host W} {state next : System W × OutputHistory}
  {action : Action W}

/-- A job that nobody has claimed is held by nobody. -/
theorem notHeldBy_of_pending (howned : state.1.Owned) {jobId : JobId}
    (hpending : ∀ row, state.1.store.job? jobId = some row →
      row.status = .pending) : state.1.NotHeldBy action jobId := by
  intro worker _ hholds
  obtain ⟨row, hrow, hclaimed, _⟩ := howned worker jobId hholds
  exact hclaimed (hpending row hrow)

/-- A row that is PENDING was so before. -/
theorem pending_before {system next : System W}
    (hstep : system.step host action = some next) {jobId : JobId}
    (hpending : ∀ row, next.store.job? jobId = some row →
      row.status = .pending) :
    ∀ row, system.store.job? jobId = some row → row.status = .pending := by
  intro row hrow
  by_contra hclaimed
  obtain ⟨after, hafter, hstill, _⟩ := step_claimed hstep hrow hclaimed
  exact hstill (hpending after hafter)

theorem streams_step (hstate : Streamed state)
    (hstep : outputStep host state action = some next) {worker : WorkerId}
    {jobId : JobId}
    (hjob : (next.1.workers worker).phase.job? = some jobId)
    {row : ImportJobRecord} (hrow : next.1.store.job? jobId = some row) :
    (next.1.workers worker).phase.Streams (next.2.appended jobId)
      row.output := by
  obtain ⟨hsystem, hhistory⟩ := recording_eq_some.mp hstep
  rw [hhistory, noteOutput_appended]
  rcases step_workers hsystem worker with
    ⟨hother, hsame⟩ | ⟨move, hmove, hnext, hmoved⟩
  · rw [hsame] at hjob ⊢
    obtain ⟨held, hheld, _⟩ := hstate.owned worker jobId hjob
    have hfree : state.1.NotHeldBy action jobId := by
      intro mover hmover hholds
      rw [one_worker_per_job hstate.owned hholds hjob] at hmover
      exact hother hmover
    rw [appendedLines_of_notHeldBy hfree, List.append_nil]
    rcases output_of_notHeldBy hsystem hfree hrow with
      ⟨old, hold, houtput⟩ | ⟨hnone, _⟩
    · rw [houtput]
      exact hstate.held worker jobId hjob old hold
    · rw [hnone] at hheld
      cases hheld
  · rw [hnext, apply_job?] at hrow
    obtain ⟨old, hold, rfl⟩ := Option.map_eq_some_iff.mp hrow
    have hid := ImportStore.job?_id hold
    rw [hmoved] at hjob ⊢
    rw [Statement.onRow_outputAfter, hid]
    rcases hmove.job? hjob with hbefore | ⟨hstatement, hwon⟩
    · have hstreams := hstate.held worker jobId hbefore old hold
      cases hmove with
      | loop hmove => exact streams_loop hmove hbefore hjob hstreams
      | run hphase hmove =>
          rw [hphase] at hbefore hstreams
          obtain rfl := Option.some.inj hbefore
          exact streams_run hphase hmove hstreams
    · -- a job just claimed has neither lines nor output
      obtain ⟨found, hfound, hpending⟩ :=
        ImportStore.affectedRows_claimSelected.mp hwon
      obtain rfl := Option.some.inj (hold.symm.trans hfound)
      have hrows : ∀ row, state.1.store.job? jobId = some row →
          row.status = .pending := by
        intro row hrow
        rw [Option.some.inj (hrow.symm.trans hold), hpending]
      rw [hmove.claimed hstatement hwon, hstate.fresh jobId hrows,
        hstate.blank jobId old hold hpending, hstatement,
        appendedLines_of_notHeldBy (notHeldBy_of_pending hstate.owned hrows)]
      exact ⟨rfl, rfl⟩

theorem fresh_step (hstate : Streamed state)
    (hstep : outputStep host state action = some next) {jobId : JobId}
    (hpending : ∀ row, next.1.store.job? jobId = some row →
      row.status = .pending) : next.2.appended jobId = [] := by
  obtain ⟨hsystem, hhistory⟩ := recording_eq_some.mp hstep
  have hbefore := pending_before hsystem hpending
  rw [hhistory, noteOutput_appended, hstate.fresh jobId hbefore,
    appendedLines_of_notHeldBy (notHeldBy_of_pending hstate.owned hbefore),
    List.append_nil]

theorem blank_step (hstate : Streamed state)
    (hstep : outputStep host state action = some next) {jobId : JobId}
    {row : ImportJobRecord} (hrow : next.1.store.job? jobId = some row)
    (hpending : row.status = .pending) : row.output = none := by
  obtain ⟨hsystem, _⟩ := recording_eq_some.mp hstep
  have hbefore := pending_before hsystem (fun other hother => by
    rw [Option.some.inj (hother.symm.trans hrow), hpending])
  rcases output_of_notHeldBy hsystem
    (notHeldBy_of_pending hstate.owned hbefore) hrow with
    ⟨old, hold, houtput⟩ | ⟨_, hnone⟩
  · rw [houtput]
    exact hstate.blank jobId old hold (hbefore old hold)
  · exact hnone

/-- A finalisation is the terminal write of a worker that has written the
output. -/
theorem finalizes?_eq_some {system next : System W}
    (hstep : system.step host action = some next) {jobId : JobId}
    {outcome : JobOutcome}
    (hfinalizes : system.finalizes? action = some (jobId, outcome)) :
    ∃ worker buffer error attempt, action = .loop worker .writeStatus ∧
      (system.workers worker).phase =
        .finalizing jobId buffer outcome error attempt true ∧
      next = system.apply worker { system.moveTo worker .idle with
        statement := .job (.setStatus jobId outcome error) } := by
  unfold System.finalizes? at hfinalizes
  split at hfinalizes
  · split at hfinalizes <;> rename_i hphase
    · cases hfinalizes
      simp only [System.step, System.loopMove, hphase, Option.map_some,
        Option.some.injEq] at hstep
      exact ⟨_, _, _, _, rfl, hphase, hstep.symm⟩
    · cases hfinalizes
  · cases hfinalizes

/-- A finalised job is not held, and no claim can win it. -/
theorem released_step (hstate : Streamed state)
    (hstep : outputStep host state action = some next) {jobId : JobId}
    {outcome : JobOutcome} (hfinal : (jobId, outcome) ∈ next.2.finalized)
    (worker : WorkerId) :
    (next.1.workers worker).phase.job? ≠ some jobId := by
  obtain ⟨hsystem, hhistory⟩ := recording_eq_some.mp hstep
  rw [hhistory, mem_noteOutput_finalized] at hfinal
  intro hjob
  rcases hfinal with hbefore | hnew
  · have hfree := hstate.released jobId outcome hbefore
    rcases step_workers hsystem worker with
      ⟨_, hsame⟩ | ⟨move, hmove, _, hmoved⟩
    · rw [hsame] at hjob
      exact hfree worker hjob
    · rw [hmoved] at hjob
      rcases hmove.job? hjob with hheld | ⟨_, hwon⟩
      · exact hfree worker hheld
      · obtain ⟨row, hrow, hpending⟩ :=
          ImportStore.affectedRows_claimSelected.mp hwon
        obtain ⟨found, hfound, hstatus, _⟩ :=
          hstate.complete jobId outcome hbefore
        rw [Option.some.inj (hfound.symm.trans hrow), hpending] at hstatus
        exact absurd hstatus.symm outcome.status_ne_pending
  · obtain ⟨finalizer, buffer, error, attempt, _, hphase, hnext⟩ :=
      finalizes?_eq_some hsystem hnew
    have hheld : (state.1.workers finalizer).phase.job? = some jobId := by
      rw [hphase]
      rfl
    rw [hnext, System.apply] at hjob
    by_cases hsame : worker = finalizer
    · subst hsame
      simp [System.moveTo, Phase.job?] at hjob
    · simp only [Function.update_of_ne hsame] at hjob
      exact hsame (one_worker_per_job hstate.owned hjob hheld)

/-- A finalised job stays as it is; the terminal write finds the column
complete. -/
theorem complete_step (hstate : Streamed state)
    (hstep : outputStep host state action = some next) :
    OutputComplete next := by
  intro jobId outcome hfinal
  obtain ⟨hsystem, hhistory⟩ := recording_eq_some.mp hstep
  rw [hhistory, mem_noteOutput_finalized] at hfinal
  rw [hhistory, noteOutput_appended]
  rcases hfinal with hbefore | hnew
  · obtain ⟨row, hrow, hstatus, houtput⟩ :=
      hstate.complete jobId outcome hbefore
    have hfree : state.1.NotHeldBy action jobId :=
      fun worker _ => hstate.released jobId outcome hbefore worker
    have hended : row.status ∈ ImportJobStatus.terminal := by
      rw [hstatus]
      exact outcome.status_terminal
    obtain ⟨kept, hkept, hsame⟩ := ended_of_notHeldBy hsystem hrow hended hfree
    refine ⟨kept, hkept, hsame.trans hstatus, ?_⟩
    rw [appendedLines_of_notHeldBy hfree, List.append_nil]
    rcases output_of_notHeldBy hsystem hfree hkept with
      ⟨old, hold, hshown⟩ | ⟨hnone, _⟩
    · rw [hshown, Option.some.inj (hold.symm.trans hrow), houtput]
    · rw [hnone] at hrow
      cases hrow
  · obtain ⟨worker, buffer, error, attempt, rfl, hphase, hnext⟩ :=
      finalizes?_eq_some hsystem hnew
    have hheld : (state.1.workers worker).phase.job? = some jobId := by
      rw [hphase]
      rfl
    obtain ⟨row, hrow, _, _⟩ := hstate.owned worker jobId hheld
    have hstreams := hstate.held worker jobId hheld row hrow
    rw [hphase] at hstreams
    obtain ⟨hlines, _, hwritten⟩ := hstreams
    have hnone : state.1.appendedLines (.loop worker .writeStatus) jobId =
        [] := rfl
    rw [hnone, List.append_nil, ← hlines, hnext, apply_job?_statement rfl, hrow]
    refine ⟨_, rfl, ?_, ?_⟩ <;>
      rw [JobStatement.update, setStatus_onRow (ImportStore.job?_id hrow)]
    exact hwritten rfl

theorem streamed_step (hstate : Streamed state)
    (hstep : outputStep host state action = some next) : Streamed next where
  owned := owned_step hstate.owned (recording_eq_some.mp hstep).1
  held := fun _ _ hjob _ hrow => streams_step hstate hstep hjob hrow
  fresh := fun _ hpending => fresh_step hstate hstep hpending
  blank := fun _ _ hrow hpending => blank_step hstate hstep hrow hpending
  released := fun _ _ hfinal worker =>
    released_step hstate hstep hfinal worker
  complete := complete_step hstate hstep

/-- A step leaves the column as it is or lengthens it. -/
theorem extends_step (hstate : Streamed state)
    (hstep : outputStep host state action = some next) :
    OutputExtends state.1 next.1 := by
  obtain ⟨hsystem, _⟩ := recording_eq_some.mp hstep
  intro jobId row text hrow htext
  have hsame : Shows row.output text := ⟨text, htext, PyText.isPrefix_refl _⟩
  by_cases hfree : state.1.NotHeldBy action jobId
  · obtain ⟨kept, hkept⟩ := job?_kept hsystem hrow
    refine ⟨kept, hkept, ?_⟩
    rcases output_of_notHeldBy hsystem hfree hkept with
      ⟨old, hold, hshown⟩ | ⟨hnone, _⟩
    · rwa [hshown, Option.some.inj (hold.symm.trans hrow)]
    · rw [hnone] at hrow
      cases hrow
  · simp only [System.NotHeldBy, not_forall, not_not] at hfree
    obtain ⟨worker, hworker, hholds⟩ := hfree
    rcases step_workers hsystem worker with
      ⟨hother, _⟩ | ⟨move, hmove, hnext, _⟩
    · exact absurd hworker hother
    · refine ⟨move.statement.onRow row, ?_, ?_⟩
      · rw [hnext, apply_job?, hrow, Option.map_some]
      · rw [Statement.onRow_outputAfter, ImportStore.job?_id hrow,
          Statement.outputAfter]
        split
        · rename_i target written hwrites
          split
          · have hstreams := hstate.held worker jobId hholds row hrow
            exact (within_written hmove hwrites hstreams).shows htext
          · exact hsame
        · exact hsame

end

theorem outputExtends_refl (system : System W) :
    OutputExtends system system := by
  intro jobId row text hrow htext
  exact ⟨row, hrow, text, htext, PyText.isPrefix_refl text⟩

theorem OutputExtends.trans {first second third : System W}
    (hfirst : OutputExtends first second)
    (hsecond : OutputExtends second third) : OutputExtends first third := by
  intro jobId row text hrow htext
  obtain ⟨kept, hkept, shown, hshown, hbegins⟩ :=
    hfirst jobId row text hrow htext
  obtain ⟨last, hlast, extended, hextended, hmore⟩ :=
    hsecond jobId kept shown hkept hshown
  exact ⟨last, hlast, extended, hextended, hbegins.trans hmore⟩

/-- A state and how far it has come from another. -/
structure StreamedSince (start : System W)
    (state : System W × OutputHistory) : Prop where
  streamed : Streamed state
  extends_start : OutputExtends start state.1

/-- In every run the output column of a job only ever grows at its end, and a
job that was finalised shows the text of all lines that were appended to
it. -/
theorem output_is_streamed (host : Host W) (world : W)
    (actions : List (Action W)) (state : System W × OutputHistory)
    (hrun : exec (outputStep host)
      (System.initial world, OutputHistory.empty) actions = some state) :
    OutputComplete state ∧ ∀ more final,
      exec (outputStep host) state more = some final →
      OutputExtends state.1 final.1 := by
  have hstate : Streamed state :=
    invariant_of_exec (fun _ _ _ hbefore hstep => streamed_step hbefore hstep)
      (streamed_initial world) hrun
  refine ⟨hstate.complete, fun more final hmore => ?_⟩
  have hsince : StreamedSince state.1 final :=
    invariant_of_exec
      (fun _ _ _ hbefore hstep => ⟨streamed_step hbefore.streamed hstep,
        hbefore.extends_start.trans (extends_step hbefore.streamed hstep)⟩)
      ⟨hstate, outputExtends_refl state.1⟩ hmore
  exact hsince.extends_start

/-- The import's lines are flushed once while more of them come; the first
terminal write fails after the output has been written. -/
def flushedImport : List (Action Unit) :=
  claimAndStart 0 ++ [.run 0 (.narrate ["Starting"]), .run 0 .flushSnapshot,
    .run 0 (.extendLines ["one", "two"]), .run 0 .flush,
    .run 0 (.endImport none), .run 0 .leave, .loop 0 .conclude,
    .loop 0 .writeOutput, .loop 0 (.fault "database is locked"),
    .loop 0 .writeOutput, .loop 0 .writeStatus]

theorem flushed_import_is_streamed :
    ∃ state, exec (outputStep plainHost)
        (System.initial (), OutputHistory.empty) flushedImport = some state ∧
      state.2.finalized = [(7, .completed)] ∧ OutputComplete state ∧
      ∀ more final, exec (outputStep plainHost) state more = some final →
        OutputExtends state.1 final.1 := by
  have hended : (exec (outputStep plainHost)
      (System.initial (), OutputHistory.empty) flushedImport).map
      (fun state => state.2.finalized) = some [(7, .completed)] := by
    decide
  obtain ⟨state, hrun, hfinalized⟩ := Option.map_eq_some_iff.mp hended
  exact ⟨state, hrun, hfinalized,
    output_is_streamed plainHost () flushedImport state hrun⟩

end Beetkeeper
