/-
How a job ends whose abort was accepted.  The worker reads the flag once more
when the import has ended and then writes the outcome; between the two the row
is still active, so an abort is accepted that nobody will read.
-/
import Beetkeeper.FinalStatus

namespace Beetkeeper

open Transition

variable {W : Type}

/-- The job the worker is about to write COMPLETED for. -/
def Phase.completing? : Phase → Option JobId
  | .finalizing jobId _ outcome _ _ _ =>
      if outcome = .completed then some jobId else none
  | _ => none

def Action.aborts? : Action W → Option JobId
  | .client (.abort jobId) => some jobId
  | _ => none

/-- An abort that the store would accept comes before the worker of the job
has read the flag for the last time. -/
def System.abortsInTime (system : System W) (action : Action W) : Prop :=
  ∀ jobId ∈ action.aborts?,
    system.store.affectedRows (requestAbort jobId) = 1 →
    ∀ worker, (system.workers worker).phase.completing? ≠ some jobId

/-- The outcome of every job for which an abort was accepted. -/
def System.AbortsHonoured (system : System W) : Prop :=
  ∀ jobId status, .abortAccepted jobId status ∈ system.log →
    ∃ row, system.store.job? jobId = some row ∧ row.status ≠ .completed ∧
      (row.status ∈ ImportJobStatus.terminal →
        row.status = .aborted ∨ row.status = .failed)

/-- What keeps such a job from COMPLETED: its flag is up, and no worker has
read it as down. -/
def System.AbortsNoted (system : System W) : Prop :=
  ∀ jobId status, .abortAccepted jobId status ∈ system.log →
    (∃ row, system.store.job? jobId = some row ∧
      row.abortRequested = true ∧ row.status ≠ .completed) ∧
    ∀ worker, (system.workers worker).phase.completing? ≠ some jobId

/-- The flag is never taken down. -/
theorem onRow_abortRequested (statement : JobStatement)
    {row : ImportJobRecord} (hflag : row.abortRequested = true) :
    (statement.update.onRow row).abortRequested = true := by
  unfold JobUpdate.onRow
  split
  · cases statement with
    | requestAbort jobId => rfl
    | _ => exact hflag
  · exact hflag

/-- COMPLETED is written by the terminal write of a completed run alone. -/
theorem onRow_completed {statement : JobStatement} {row : ImportJobRecord}
    (hcompleted : (statement.update.onRow row).status = .completed) :
    row.status = .completed ∨
      ∃ error, statement = .setStatus row.id .completed error := by
  unfold JobUpdate.onRow at hcompleted
  split at hcompleted
  · rename_i happlies
    cases statement with
    | setStatus jobId outcome error =>
        simp only [JobStatement.update, setStatus, decide_eq_true_eq]
          at happlies
        subst happlies
        cases outcome with
        | completed => exact Or.inr ⟨error, rfl⟩
        | failed => cases hcompleted
        | aborted => cases hcompleted
    | setOutput jobId output => exact Or.inl hcompleted
    | submitDecision jobId decision => exact Or.inl hcompleted
    | requestAbort jobId => exact Or.inl hcompleted
    | _ => cases hcompleted
  · exact Or.inl hcompleted

/-- A worker comes to complete a job by reading its flag as down. -/
theorem loopMove_completing {system : System W} {worker : WorkerId}
    {action : LoopAction} {move : Move W} {jobId : JobId}
    (hmove : system.loopMove worker action = some move)
    (hcompleting : move.phase.completing? = some jobId) :
    (system.workers worker).phase.completing? = some jobId ∨
      system.store.isAbortRequested jobId = false := by
  unfold System.loopMove at hmove
  split at hmove <;> rename_i hphase <;> try rw [hphase]
  all_goals repeat' split at hmove
  all_goals cases hmove
  all_goals first
    | exact Or.inl hcompleting
    | simp only [System.moveTo, Phase.completing?, reduceCtorEq, if_true,
        Option.some.injEq] at hcompleting
  subst hcompleting
  exact Or.inr (Bool.not_eq_true _ ▸ by assumption)

theorem WorkerMove.completing {host : Host W} {system : System W}
    {worker : WorkerId} {action : Action W} {move : Move W} {jobId : JobId}
    (hmove : WorkerMove host system worker action move)
    (hcompleting : move.phase.completing? = some jobId) :
    (system.workers worker).phase.completing? = some jobId ∨
      system.store.isAbortRequested jobId = false := by
  cases hmove with
  | loop hmove => exact loopMove_completing hmove hcompleting
  | run hphase hmove =>
      rcases runMove_cases hmove with ⟨_, _, _, hnext, _⟩ | ⟨_, _, hnext, _⟩
      · rw [hnext] at hcompleting
        cases hcompleting
      · rw [hnext] at hcompleting
        cases hcompleting

/-- The terminal write of a completed run comes from a worker about to issue
it. -/
theorem Sends.completing {host : Host W} {system : System W}
    {action : Action W} {jobId : JobId} {error : Option String}
    (hsends : Sends host system action (.setStatus jobId .completed error)) :
    ∃ worker, (system.workers worker).phase.completing? = some jobId := by
  cases hsends with
  | @worker mover _ _ _ hmove hstatement =>
      have hissues := hmove.issues hstatement
      refine ⟨mover, ?_⟩
      generalize (system.workers mover).phase = phase at hissues
      cases hissues
      rfl

theorem abortsNoted_initial (world : W) :
    (System.initial world).AbortsNoted := by
  intro jobId status habort
  cases habort

/-- A noted abort stays noted. -/
theorem abortsNoted_kept {host : Host W} {system next : System W}
    {action : Action W} (hstep : system.step host action = some next)
    {jobId : JobId} {row : ImportJobRecord}
    (hrow : system.store.job? jobId = some row)
    (hflag : row.abortRequested = true)
    (hcompleted : row.status ≠ .completed)
    (hfree : ∀ worker,
      (system.workers worker).phase.completing? ≠ some jobId) :
    (∃ kept, next.store.job? jobId = some kept ∧
      kept.abortRequested = true ∧ kept.status ≠ .completed) ∧
    ∀ worker, (next.workers worker).phase.completing? ≠ some jobId := by
  constructor
  · rcases step_job? hstep jobId with hsame | ⟨statement, hsends, hset⟩ |
      ⟨_, _, hnone, _⟩
    · exact ⟨row, hsame.trans hrow, hflag, hcompleted⟩
    · rw [hrow] at hset
      refine ⟨_, hset, onRow_abortRequested statement hflag, ?_⟩
      intro hwritten
      rcases onRow_completed hwritten with hbefore | ⟨error, rfl⟩
      · exact hcompleted hbefore
      · obtain ⟨worker, hcompleting⟩ := hsends.completing
        rw [ImportStore.job?_id hrow] at hcompleting
        exact hfree worker hcompleting
    · rw [hrow] at hnone
      cases hnone
  · intro worker hcompleting
    rcases step_workers hstep worker with
      ⟨_, hsame⟩ | ⟨move, hmove, _, hmoved⟩
    · rw [hsame] at hcompleting
      exact hfree worker hcompleting
    · rw [hmoved] at hcompleting
      rcases hmove.completing hcompleting with hbefore | hdown
      · exact hfree worker hbefore
      · rw [ImportStore.isAbortRequested, hrow, Option.any_some, hflag]
          at hdown
        cases hdown

/-- A step notes an abort only when the store accepts it. -/
theorem step_abortAccepted {host : Host W} {system next : System W}
    {action : Action W} (hstep : system.step host action = some next)
    {jobId : JobId} {status : ImportJobStatus}
    (habort : .abortAccepted jobId status ∈ next.log) :
    .abortAccepted jobId status ∈ system.log ∨
    (action = .client (.abort jobId) ∧
      system.store.affectedRows (requestAbort jobId) = 1) := by
  rcases step_cases hstep with ⟨worker, move, hmove, rfl⟩ |
    ⟨request, rfl, hclient⟩ | ⟨_, rfl, rfl⟩ | ⟨_, rfl, rfl⟩
  · simp only [System.apply, List.mem_append] at habort
    refine Or.inl (habort.resolve_right fun hadded => ?_)
    rcases hmove.events with hnone | ⟨_, _, hone⟩ | ⟨_, _, _, _, _, _, hone⟩
    · rw [hnone] at hadded
      cases hadded
    · rw [hone, List.mem_singleton] at hadded
      cases hadded
    · rw [hone, List.mem_singleton] at hadded
      cases hadded
  · rcases clientStep_log hclient with hsame | ⟨_, _, hone⟩ |
      ⟨aborted, row, rfl, _, haccepted, hone⟩
    · exact Or.inl (hsame ▸ habort)
    · rw [hone, List.mem_append, List.mem_singleton] at habort
      exact Or.inl (habort.resolve_right nofun)
    · rw [hone, List.mem_append, List.mem_singleton] at habort
      rcases habort with hbefore | hadded
      · exact Or.inl hbefore
      · obtain ⟨rfl, _⟩ := Event.abortAccepted.inj hadded
        exact Or.inr ⟨rfl, haccepted⟩
  · exact Or.inl habort
  · exact Or.inl habort

theorem abortsNoted_step {host : Host W} {system next : System W}
    {action : Action W} (hnoted : system.AbortsNoted)
    (hok : system.abortsInTime action)
    (hstep : system.step host action = some next) : next.AbortsNoted := by
  intro jobId status habort
  rcases step_abortAccepted hstep habort with hbefore | ⟨rfl, haccepted⟩
  · obtain ⟨⟨row, hrow, hflag, hcompleted⟩, hfree⟩ :=
      hnoted jobId status hbefore
    exact abortsNoted_kept hstep hrow hflag hcompleted hfree
  · have hfree := hok jobId rfl haccepted
    obtain ⟨row, hrow, habortable⟩ :=
      ImportStore.affectedRows_requestAbort.mp haccepted
    obtain ⟨_, _, rfl⟩ := Option.map_eq_some_iff.mp hstep
    refine ⟨⟨{ row with abortRequested := true }, ?_, rfl, ?_⟩, hfree⟩
    · rw [ImportStore.job?_execute, hrow, Option.map_some,
        requestAbort_onRow (ImportStore.job?_id hrow), if_pos habortable]
    · intro hcompleted
      have hstatus : row.status = .completed := hcompleted
      rw [hstatus] at habortable
      simp [ImportJobStatus.abortable, ImportJobStatus.active] at habortable

/-- In every run in which no abort is accepted between a worker's last look
at the flag and its terminal write, no job ends COMPLETED for which an abort
was accepted. -/
theorem accepted_aborts_are_honoured (host : Host W) (world : W)
    (actions : List (Action W))
    (hadmitted : Admitted (System.step host) System.abortsInTime
      (System.initial world) actions) (system : System W)
    (hrun : System.runFrom host world actions = some system) :
    system.AbortsHonoured := by
  have hnoted : system.AbortsNoted :=
    invariant_of_admitted
      (fun _ _ _ hnoted hok hstep => abortsNoted_step hnoted hok hstep)
      (abortsNoted_initial world) hadmitted hrun
  intro jobId status habort
  obtain ⟨⟨row, hrow, _, hcompleted⟩, _⟩ := hnoted jobId status habort
  refine ⟨row, hrow, hcompleted, fun hended => ?_⟩
  simp only [ImportJobStatus.terminal, List.mem_cons, List.not_mem_nil,
    or_false] at hended
  rcases hended with hdone | hfailed | haborted
  · exact absurd hdone hcompleted
  · exact Or.inr hfailed
  · exact Or.inl haborted

/-- A process on its own is the only one to look at. -/
theorem abortsInTime_of_alone {system : System W} {worker : WorkerId}
    {action : Action W} (halone : system.Alone worker)
    (hown : ∀ jobId ∈ action.aborts?,
      (system.workers worker).phase.completing? ≠ some jobId) :
    system.abortsInTime action := by
  intro jobId habort _ other
  by_cases hsame : other = worker
  · rw [hsame]
    exact hown jobId habort
  · rw [halone other hsame]
    exact nofun

/-- The abort is accepted after the worker has read the flag as down. -/
def lateAbort : List (Action Unit) :=
  claimAndStart 0 ++ [.run 0 (.endImport none), .run 0 .leave,
    .loop 0 .conclude, .client (.abort 7), .loop 0 .writeOutput,
    .loop 0 .writeStatus]

theorem late_abort_completes :
    (∀ action ∈ lateAbort, action.onlyOf 0) ∧
    ∃ system, System.runFrom plainHost () lateAbort = some system ∧
      ¬ system.AbortsHonoured := by
  refine ⟨by decide, ?_⟩
  have hended : (System.runFrom plainHost () lateAbort).map (fun system =>
      (system.log, (system.store.job? 7).map ImportJobRecord.status)) =
      some ([.abortAccepted 7 .running], some .completed) := by
    decide
  obtain ⟨system, hrun, hview⟩ := Option.map_eq_some_iff.mp hended
  obtain ⟨hlog, hjob⟩ := Prod.mk.inj hview
  refine ⟨system, hrun, fun hhonoured => ?_⟩
  obtain ⟨row, hrow, hcompleted, _⟩ := hhonoured 7 .running (by simp [hlog])
  rw [hrow] at hjob
  exact hcompleted (Option.some.inj hjob)

/-- The abort is accepted while the import is under way. -/
def timelyAbort : List (Action Unit) :=
  claimAndStart 0 ++ [.client (.abort 7), .run 0 (.endImport none),
    .run 0 .leave, .loop 0 .conclude, .loop 0 .writeOutput,
    .loop 0 .writeStatus]

theorem timely_abort_is_honoured :
    ∃ system, System.runFrom plainHost () timelyAbort = some system ∧
      .abortAccepted 7 .running ∈ system.log ∧ system.AbortsHonoured := by
  have hended : (System.runFrom plainHost () timelyAbort).map System.log =
      some [.abortAccepted 7 .running] := by
    decide
  obtain ⟨system, hrun, hlog⟩ := Option.map_eq_some_iff.mp hended
  refine ⟨system, hrun, by simp [hlog],
    accepted_aborts_are_honoured plainHost () timelyAbort ?_ system hrun⟩
  have hown : Admitted (System.step plainHost)
      (fun system action => action.onlyOf 0 ∧ ∀ jobId ∈ action.aborts?,
        (system.workers 0).phase.completing? ≠ some jobId)
      (System.initial ()) timelyAbort := by
    decide
  exact everyStep_of_admitted
    (fun _ _ _ halone hok hstep => alone_step halone hok.1 hstep)
    (fun _ _ _ halone hok _ => abortsInTime_of_alone halone hok.2)
    (alone_initial 0 ()) hown

end Beetkeeper
