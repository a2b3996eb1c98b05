/-
What the columns of a job row say about each other.  A row is parked exactly
while it carries a request, and names a claimant exactly when it has left
PENDING; the recovery of orphans rests on the latter, since its SQL test does
not hold of a row that names nobody.
-/
import Beetkeeper.StoreProcesses

namespace Beetkeeper

open Transition

/-- The job whose status the statement writes without a test of it. -/
def JobStatement.writesStatusOf : JobStatement → Option JobId
  | .setStatus jobId _ _ => some jobId
  | .setAwaiting request => some request.jobId
  | .takeDecision jobId => some jobId
  | _ => none

structure ImportJobRecord.ColumnsAgree (row : ImportJobRecord) : Prop where
  parked_iff : row.pendingDecision.isSome = true ↔
    row.status = .awaitingDecision
  unclaimed_iff : row.claimedBy = none ↔ row.status = .pending

theorem columnsAgree_newRecord (settings : JobSettings) (id now : Nat) :
    (settings.newRecord id now).ColumnsAgree where
  parked_iff := by simp [JobSettings.newRecord]
  unclaimed_iff := by simp [JobSettings.newRecord]

/-- A statement that writes the status of this row finds it claimed. -/
def JobStatement.spares (statement : JobStatement) (row : ImportJobRecord) :
    Prop :=
  statement.writesStatusOf = some row.id → row.status ≠ .pending

theorem columnsAgree_onRow {statement : JobStatement} {row : ImportJobRecord}
    (hrow : row.ColumnsAgree) (hspares : statement.spares row) :
    (statement.update.onRow row).ColumnsAgree := by
  obtain ⟨hparked, hunclaimed⟩ := hrow
  unfold JobUpdate.onRow
  split
  · rename_i happlies
    cases statement with
    | setStatus jobId outcome error =>
        simp only [JobStatement.update, setStatus, decide_eq_true_eq]
          at happlies
        have hclaimed : row.status ≠ .pending :=
          hspares (congrArg some happlies.symm)
        have hended : outcome.status ≠ .awaitingDecision := by
          cases outcome <;> decide
        exact ⟨by simp [JobStatement.update, setStatus, hended],
          by simp [JobStatement.update, setStatus,
            outcome.status_ne_pending, hunclaimed, hclaimed]⟩
    | setAwaiting request =>
        simp only [JobStatement.update, setAwaiting, decide_eq_true_eq]
          at happlies
        have hclaimed : row.status ≠ .pending :=
          hspares (congrArg some happlies.symm)
        exact ⟨by simp [JobStatement.update, setAwaiting],
          by simp [JobStatement.update, setAwaiting, hunclaimed, hclaimed]⟩
    | takeDecision jobId =>
        simp only [JobStatement.update, takeDecision, Bool.and_eq_true,
          decide_eq_true_eq] at happlies
        have hclaimed : row.status ≠ .pending :=
          hspares (congrArg some happlies.1.symm)
        exact ⟨by simp [JobStatement.update, takeDecision],
          by simp [JobStatement.update, takeDecision, hunclaimed, hclaimed]⟩
    | claimSelected jobId worker =>
        simp only [JobStatement.update, claimSelected, Bool.and_eq_true,
          decide_eq_true_eq] at happlies
        -- a PENDING row is not parked, and so carries no request
        have hfree : row.pendingDecision.isSome ≠ true := by
          rw [ne_eq, hparked, happlies.2]
          rintro ⟨⟩
        exact ⟨by simpa [JobStatement.update, claimSelected] using hfree,
          by simp [JobStatement.update, claimSelected]⟩
    | recoverOrphans worker =>
        simp only [JobStatement.update, recoverOrphans, Bool.and_eq_true,
          Option.any_eq_true] at happlies
        obtain ⟨_, owner, howner, _⟩ := happlies
        exact ⟨by simp [JobStatement.update, recoverOrphans],
          by simp [JobStatement.update, recoverOrphans, howner]⟩
    | setOutput jobId output => exact ⟨hparked, hunclaimed⟩
    | submitDecision jobId decision => exact ⟨hparked, hunclaimed⟩
    | requestAbort jobId => exact ⟨hparked, hunclaimed⟩
  · exact ⟨hparked, hunclaimed⟩

/-- Recovery leaves no active row to anybody else, if every active row names
its claimant. -/
theorem recoverOrphans_onRow {worker : WorkerId} {row : ImportJobRecord}
    (hrow : row.ColumnsAgree)
    (hactive : ((recoverOrphans worker).onRow row).status ∈
      ImportJobStatus.active) :
    ((recoverOrphans worker).onRow row).claimedBy = some worker := by
  unfold JobUpdate.onRow at hactive ⊢
  split at hactive
  · simp [recoverOrphans, ImportJobStatus.active] at hactive
  · rename_i hspared
    rw [if_neg hspared]
    simp only [recoverOrphans, Bool.and_eq_true, decide_eq_true_eq,
      not_and, Bool.not_eq_true] at hspared
    have hother := hspared hactive
    cases howner : row.claimedBy with
    | none =>
        exact absurd (hrow.unclaimed_iff.mp howner)
          (ImportJobStatus.ne_pending_of_active hactive)
    | some owner =>
        rw [howner, Option.any_some, decide_eq_false_iff_not, not_not]
          at hother
        rw [hother]

namespace StoreProcesses

/-- `set_awaiting`, `take_decision` and the terminal `set_status` are issued
by the worker that claimed the job, which may have been failed since. -/
def ByClaimant (procs : StoreProcesses) : StoreAction → Prop
  | .issue process statement =>
      ∀ jobId ∈ statement.writesStatusOf, (jobId, process) ∈ procs.claims
  | _ => True

instance (procs : StoreProcesses) (action : StoreAction) :
    Decidable (procs.ByClaimant action) := by
  cases action <;> unfold ByClaimant <;> infer_instance

def RowsAgree (procs : StoreProcesses) : Prop :=
  ∀ jobId row, procs.store.job? jobId = some row → row.ColumnsAgree

/-- No active job is left to anybody but this worker. -/
def LeftTo (worker : WorkerId) (procs : StoreProcesses) : Prop :=
  ∀ jobId row, procs.store.job? jobId = some row →
    row.status ∈ ImportJobStatus.active → row.claimedBy = some worker

theorem rowsAgree_initial : initial.RowsAgree := by
  intro jobId row hrow
  cases hrow

/-- A statement its claimant issues spares every row nobody has claimed. -/
theorem spares_of_byClaimant {procs : StoreProcesses}
    (hprocs : procs.ClaimsOnce) {process : WorkerId}
    {statement : JobStatement}
    (hclaimant : procs.ByClaimant (.issue process statement)) {jobId : JobId}
    {row : ImportJobRecord} (hrow : procs.store.job? jobId = some row) :
    statement.spares row := by
  intro hwrites hpending
  obtain rfl := ImportStore.job?_id hrow
  exact hprocs.unclaimed hrow hpending process (hclaimant row.id hwrites)

theorem rowsAgree_step {before after : StoreProcesses} {action : StoreAction}
    (hclaims : before.ClaimsOnce) (hrows : before.RowsAgree)
    (hclaimant : before.ByClaimant action)
    (hstep : before.step action = some after) : after.RowsAgree := by
  intro jobId row hrow
  rcases step_job? hstep jobId with hsame | ⟨process, statement, rfl, _, hset⟩ |
    ⟨worker, chosen, _, _, hset⟩ | ⟨now, settings, _, _, hnew⟩
  · exact hrows jobId row (hsame.symm.trans hrow)
  · obtain ⟨old, hold, rfl⟩ :=
      Option.map_eq_some_iff.mp (hset.symm.trans hrow)
    exact columnsAgree_onRow (hrows jobId old hold)
      (spares_of_byClaimant hclaims hclaimant hold)
  · obtain ⟨old, hold, rfl⟩ :=
      Option.map_eq_some_iff.mp (hset.symm.trans hrow)
    have hspares : (JobStatement.claimSelected chosen worker).spares old :=
      nofun
    exact columnsAgree_onRow (hrows jobId old hold) hspares
  · obtain rfl := Option.some.inj (hnew.symm.trans hrow)
    exact columnsAgree_newRecord settings jobId now

/-- What the claims and the columns are, in every state that is reached. -/
structure Consistent (procs : StoreProcesses) : Prop where
  claims : procs.ClaimsOnce
  rows : procs.RowsAgree

theorem consistent_initial : initial.Consistent where
  claims := claimsOnce_initial
  rows := rowsAgree_initial

theorem consistent_step {before after : StoreProcesses}
    {action : StoreAction} (hbefore : before.Consistent)
    (hclaimant : before.ByClaimant action)
    (hstep : before.step action = some after) : after.Consistent where
  claims := claimsOnce_step hbefore.claims hstep
  rows := rowsAgree_step hbefore.claims hbefore.rows hclaimant hstep

/-- Recovery, whoever issues it, fails every active job of another worker. -/
theorem leftTo_recover {before after : StoreProcesses}
    {process worker : WorkerId} (hrows : before.RowsAgree)
    (hstep : before.step (.issue process (.recoverOrphans worker)) =
      some after) : after.LeftTo worker := by
  obtain rfl := Option.some.inj hstep
  intro jobId row hrow hactive
  rw [ImportStore.job?_execute] at hrow
  obtain ⟨old, hold, rfl⟩ := Option.map_eq_some_iff.mp hrow
  exact recoverOrphans_onRow (hrows jobId old hold) hactive

/-- In every state the operations of the store lead to, the columns of every
row agree; so directly after `recover_orphans` every active job is the
recovering worker's. -/
theorem columns_agree (actions : List StoreAction)
    (hclaimant : Admitted step ByClaimant initial actions)
    (procs : StoreProcesses) (hexec : exec step initial actions = some procs) :
    procs.RowsAgree ∧ ∀ process worker after,
      procs.step (.issue process (.recoverOrphans worker)) = some after →
      after.LeftTo worker := by
  have hprocs : procs.Consistent :=
    invariant_of_admitted
      (fun _ _ _ hbefore hok hstep => consistent_step hbefore hok hstep)
      consistent_initial hclaimant hexec
  exact ⟨hprocs.rows, fun process worker after hstep =>
    leftTo_recover hprocs.rows hstep⟩

/-- Worker 0 parks job 7 on a request; worker 1 recovers it; worker 0 still
takes the answer that had been accepted, which makes the job RUNNING again. -/
def revived : List StoreAction :=
  [.create 7 0 (.ofPaths []), .select 0 7, .claim 0,
    .issue 0 (.setAwaiting ⟨7, "1", "", [], [], 1⟩),
    .issue 1 (.submitDecision 7 ⟨.skip, none, some 1⟩),
    .issue 1 (.recoverOrphans 1), .issue 0 (.takeDecision 7)]

theorem columns_agree_after_revival :
    ∃ procs, exec step initial revived = some procs ∧ procs.RowsAgree ∧
      ∀ process worker after,
        procs.step (.issue process (.recoverOrphans worker)) = some after →
        after.LeftTo worker := by
  have hreached : (exec step initial revived).isSome = true := by decide
  obtain ⟨procs, hexec⟩ := Option.isSome_iff_exists.mp hreached
  exact ⟨procs, hexec, columns_agree revived (by decide) procs hexec⟩

end StoreProcesses

end Beetkeeper
