/-
Which worker may write to which job.  A worker holds a job from the claim it
won until its terminal write; all that time the row names it as claimant and
is not PENDING, so no other worker can come to hold the same job.
-/
import Beetkeeper.WorkerSteps

namespace Beetkeeper

variable {W : Type}

/-- The job a statement names by its id alone, without a test on the row. -/
def JobStatement.byId : JobStatement → Option JobId
  | .setStatus jobId _ _ => some jobId
  | .setOutput jobId _ => some jobId
  | .setAwaiting request => some request.jobId
  | .takeDecision jobId => some jobId
  | .submitDecision _ _ => none
  | .requestAbort _ => none
  | .claimSelected _ _ => none
  | .recoverOrphans _ => none

/-- Where a statement changes another row than the one it names by id, it
names none. -/
theorem JobStatement.byId_eq_none {statement : JobStatement}
    {row : ImportJobRecord} (happlies : statement.update.applies row = true)
    (hid : statement.byId ≠ some row.id) : statement.byId = none := by
  cases statement with
  | setStatus jobId outcome error =>
      simp only [update, Beetkeeper.setStatus, decide_eq_true_eq] at happlies
      exact absurd (congrArg some happlies.symm) hid
  | setOutput jobId output =>
      simp only [update, Beetkeeper.setOutput, decide_eq_true_eq] at happlies
      exact absurd (congrArg some happlies.symm) hid
  | setAwaiting request =>
      simp only [update, Beetkeeper.setAwaiting, decide_eq_true_eq]
        at happlies
      exact absurd (congrArg some happlies.symm) hid
  | takeDecision jobId =>
      simp only [update, Beetkeeper.takeDecision, Bool.and_eq_true,
        decide_eq_true_eq] at happlies
      exact absurd (congrArg some happlies.1.symm) hid
  | submitDecision jobId decision => rfl
  | requestAbort jobId => rfl
  | claimSelected jobId worker => rfl
  | recoverOrphans worker => rfl

/-- A worker names by id only the job it holds. -/
theorem Issues.holds {worker : WorkerId} {phase : Phase}
    {statement : JobStatement} (hissues : Issues worker phase statement)
    {jobId : JobId} (hid : statement.byId = some jobId) :
    phase.job? = some jobId := by
  cases hissues <;> cases hid <;> rfl

/-- A statement of the system that names a job by id comes from the worker
holding it. -/
theorem Sends.holds {host : Host W} {system : System W} {action : Action W}
    {statement : JobStatement} (hsends : Sends host system action statement)
    {jobId : JobId} (hid : statement.byId = some jobId) :
    ∃ worker move, WorkerMove host system worker action move ∧
      move.statement = .job statement ∧
      (system.workers worker).phase.job? = some jobId := by
  cases hsends with
  | worker hmove hstatement =>
      exact ⟨_, _, hmove, hstatement, (hmove.issues hstatement).holds hid⟩
  | post _ => cases hid
  | abort => cases hid

/-- The step is not one of a worker that holds the job. -/
def System.NotHeldBy (system : System W) (action : Action W)
    (jobId : JobId) : Prop :=
  ∀ worker, action.worker? = some worker →
    (system.workers worker).phase.job? ≠ some jobId

/-- No other step names the job by its id. -/
theorem Sends.not_byId {host : Host W} {system : System W}
    {action : Action W} {statement : JobStatement}
    (hsends : Sends host system action statement) {jobId : JobId}
    (hfree : system.NotHeldBy action jobId) :
    statement.byId ≠ some jobId := by
  intro hid
  obtain ⟨worker, move, hmove, _, hholds⟩ := hsends.holds hid
  exact hfree worker hmove.worker? hholds

/-- Once a row has left PENDING no statement takes it back or changes its
claimant. -/
theorem onRow_claimed (statement : JobStatement) {row : ImportJobRecord}
    (hclaimed : row.status ≠ .pending) :
    (statement.update.onRow row).status ≠ .pending ∧
      (statement.update.onRow row).claimedBy = row.claimedBy := by
  unfold JobUpdate.onRow
  split
  · rename_i happlies
    cases statement with
    | setStatus jobId outcome error =>
        exact ⟨outcome.status_ne_pending, rfl⟩
    | claimSelected jobId worker =>
        simp only [JobStatement.update, claimSelected, Bool.and_eq_true,
          decide_eq_true_eq] at happlies
        exact absurd happlies.2 hclaimed
    | setAwaiting request => exact ⟨by rintro ⟨⟩, rfl⟩
    | takeDecision jobId => exact ⟨by rintro ⟨⟩, rfl⟩
    | recoverOrphans worker => exact ⟨by rintro ⟨⟩, rfl⟩
    | setOutput jobId output => exact ⟨hclaimed, rfl⟩
    | submitDecision jobId decision => exact ⟨hclaimed, rfl⟩
    | requestAbort jobId => exact ⟨hclaimed, rfl⟩
  · exact ⟨hclaimed, rfl⟩

/-- Every step leaves a claimed row claimed by the same worker. -/
theorem step_claimed {host : Host W} {system next : System W}
    {action : Action W} (hstep : system.step host action = some next)
    {jobId : JobId} {row : ImportJobRecord}
    (hrow : system.store.job? jobId = some row)
    (hclaimed : row.status ≠ .pending) :
    ∃ after, next.store.job? jobId = some after ∧ after.status ≠ .pending ∧
      after.claimedBy = row.claimedBy := by
  rcases step_job? hstep jobId with hsame | ⟨statement, _, hset⟩ |
    ⟨_, _, hnone, _⟩
  · exact ⟨row, hsame.trans hrow, hclaimed, rfl⟩
  · rw [hrow] at hset
    exact ⟨_, hset, onRow_claimed statement hclaimed⟩
  · rw [hrow] at hnone
    cases hnone

/-- What holds of every new row and is kept by every statement is kept by
every step. -/
theorem step_rows {host : Host W} {system next : System W} {action : Action W}
    {P : ImportJobRecord → Prop}
    (hnew : ∀ settings id now, P (JobSettings.newRecord settings id now))
    (hset : ∀ (statement : JobStatement) row, P row →
      P (statement.update.onRow row))
    (hstep : system.step host action = some next)
    (hrows : ∀ jobId row, system.store.job? jobId = some row → P row) :
    ∀ jobId row, next.store.job? jobId = some row → P row := by
  intro jobId row hrow
  rcases step_job? hstep jobId with hsame | ⟨statement, _, hafter⟩ |
    ⟨settings, _, _, hcreated⟩
  · exact hrows jobId row (hsame.symm.trans hrow)
  · obtain ⟨before, hbefore, rfl⟩ :=
      Option.map_eq_some_iff.mp (hafter.symm.trans hrow)
    exact hset statement before (hrows jobId before hbefore)
  · obtain rfl := Option.some.inj (hcreated.symm.trans hrow)
    exact hnew settings jobId system.clock

/-- The claim that won its race wrote the claimant. -/
theorem claimSelected_row {store : ImportStore} {jobId : JobId}
    {worker : WorkerId}
    (haffected : store.affectedRows (claimSelected jobId worker) = 1) :
    ∃ row, store.job? jobId = some row ∧ row.status = .pending ∧
      (store.execute (claimSelected jobId worker)).job? jobId =
        some { row with status := .running, claimedBy := some worker } := by
  obtain ⟨row, hrow, hpending⟩ :=
    ImportStore.affectedRows_claimSelected.mp haffected
  refine ⟨row, hrow, hpending, ?_⟩
  have hid := ImportStore.job?_id hrow
  simp [hrow, JobUpdate.onRow, claimSelected, hid, hpending]

/-- Whoever holds a job is the claimant of its row. -/
def System.Owned (system : System W) : Prop :=
  ∀ worker jobId, (system.workers worker).phase.job? = some jobId →
    ∃ row, system.store.job? jobId = some row ∧ row.status ≠ .pending ∧
      row.claimedBy = some worker

theorem owned_initial (world : W) : (System.initial world).Owned := by
  intro worker jobId hjob
  cases hjob

theorem owned_step {host : Host W} {system next : System W}
    {action : Action W} (howned : system.Owned)
    (hstep : system.step host action = some next) : next.Owned := by
  intro worker jobId hjob
  have hkept : (system.workers worker).phase.job? = some jobId →
      ∃ row, next.store.job? jobId = some row ∧ row.status ≠ .pending ∧
        row.claimedBy = some worker := by
    intro hbefore
    obtain ⟨row, hrow, hclaimed, howner⟩ := howned worker jobId hbefore
    obtain ⟨after, hafter, hstill, hsame⟩ := step_claimed hstep hrow hclaimed
    exact ⟨after, hafter, hstill, hsame.trans howner⟩
  rcases step_workers hstep worker with
    ⟨_, hsame⟩ | ⟨move, hmove, rfl, hmoved⟩
  · rw [hsame] at hjob
    exact hkept hjob
  · rw [hmoved] at hjob
    rcases hmove.job? hjob with hbefore | ⟨hstatement, haffected⟩
    · exact hkept hbefore
    · obtain ⟨row, _, _, hafter⟩ := claimSelected_row haffected
      refine ⟨{ row with status := .running, claimedBy := some worker },
        ?_, nofun, rfl⟩
      rw [System.apply, hstatement]
      exact hafter

theorem one_worker_per_job {system : System W} (howned : system.Owned)
    {first second : WorkerId} {jobId : JobId}
    (hfirst : (system.workers first).phase.job? = some jobId)
    (hsecond : (system.workers second).phase.job? = some jobId) :
    first = second := by
  obtain ⟨row, hrow, _, howner⟩ := howned first jobId hfirst
  obtain ⟨other, hother, _, hclaimant⟩ := howned second jobId hsecond
  rw [hrow] at hother
  cases hother
  rw [howner] at hclaimant
  exact Option.some.inj hclaimant

/-- Two workers never hold the same job, in any run. -/
theorem no_job_is_shared {host : Host W} {world : W}
    {actions : List (Action W)} {system : System W}
    (hrun : System.runFrom host world actions = some system)
    {first second : WorkerId} {jobId : JobId}
    (hfirst : (system.workers first).phase.job? = some jobId)
    (hsecond : (system.workers second).phase.job? = some jobId) :
    first = second := by
  have howned : system.Owned :=
    Transition.invariant_of_exec
      (fun _ _ _ howned hstep => owned_step howned hstep)
      (owned_initial world) hrun
  exact one_worker_per_job howned hfirst hsecond

end Beetkeeper
