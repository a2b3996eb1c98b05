/-
Terminal statuses are final only as long as orphan recovery fails true
orphans.  `set_status`, `set_awaiting` and `take_decision` name their row by id
alone, so a worker whose job was failed under it still writes to that job.
-/
import Beetkeeper.JobOwnership

namespace Beetkeeper

open Transition

variable {W : Type}

/-- A statement that tests the status, or names another row, leaves the
status of an ended job alone. -/
theorem onRow_ended {statement : JobStatement} {row : ImportJobRecord}
    (hended : row.status ∈ ImportJobStatus.terminal)
    (hid : statement.byId ≠ some row.id) :
    (statement.update.onRow row).status = row.status := by
  have habortable := ImportJobStatus.mem_terminal_iff.mp hended
  simp only [ImportJobStatus.abortable, ImportJobStatus.active,
    List.mem_cons, List.not_mem_nil, or_false, not_or] at habortable
  obtain ⟨hpending, hrunning, hawaiting⟩ := habortable
  unfold JobUpdate.onRow
  split
  · rename_i happlies
    have hnone := JobStatement.byId_eq_none happlies hid
    cases statement with
    | setStatus jobId outcome error => cases hnone
    | setOutput jobId output => cases hnone
    | setAwaiting request => cases hnone
    | takeDecision jobId => cases hnone
    | claimSelected jobId worker =>
        simp only [JobStatement.update, claimSelected, Bool.and_eq_true,
          decide_eq_true_eq] at happlies
        exact absurd happlies.2 hpending
    | recoverOrphans worker =>
        simp only [JobStatement.update, recoverOrphans, ImportJobStatus.active,
          Bool.and_eq_true, decide_eq_true_eq, List.mem_cons,
          List.not_mem_nil, or_false] at happlies
        exact absurd happlies.1 (not_or.mpr ⟨hrunning, hawaiting⟩)
    | submitDecision jobId decision => rfl
    | requestAbort jobId => rfl
  · rfl

/-- A job stays with its worker through every statement but that worker's
terminal write and another worker's orphan recovery. -/
theorem onRow_active {statement : JobStatement} {row : ImportJobRecord}
    {worker : WorkerId} (hactive : row.status ∈ ImportJobStatus.active)
    (howner : row.claimedBy = some worker)
    (hlast : ∀ outcome error,
      statement ≠ .setStatus row.id outcome error)
    (horphan : ∀ other, statement = .recoverOrphans other →
      other = worker) :
    (statement.update.onRow row).status ∈ ImportJobStatus.active ∧
      (statement.update.onRow row).claimedBy = some worker := by
  unfold JobUpdate.onRow
  split
  · rename_i happlies
    cases statement with
    | setStatus jobId outcome error =>
        simp only [JobStatement.update, setStatus, decide_eq_true_eq]
          at happlies
        subst happlies
        exact absurd rfl (hlast outcome error)
    | recoverOrphans other =>
        obtain rfl := horphan other rfl
        simp [JobStatement.update, recoverOrphans, howner] at happlies
    | claimSelected jobId other =>
        simp only [JobStatement.update, claimSelected, Bool.and_eq_true,
          decide_eq_true_eq] at happlies
        exact absurd happlies.2
          (ImportJobStatus.ne_pending_of_active hactive)
    | setAwaiting request =>
        exact ⟨by simp [JobStatement.update, setAwaiting,
          ImportJobStatus.active], howner⟩
    | takeDecision jobId =>
        exact ⟨by simp [JobStatement.update, takeDecision,
          ImportJobStatus.active], howner⟩
    | setOutput jobId output => exact ⟨hactive, howner⟩
    | submitDecision jobId decision => exact ⟨hactive, howner⟩
    | requestAbort jobId => exact ⟨hactive, howner⟩
  · exact ⟨hactive, howner⟩

/-- Whoever holds a job works on an active row that names it. -/
def System.Working (system : System W) : Prop :=
  ∀ worker jobId, (system.workers worker).phase.job? = some jobId →
    ∃ row, system.store.job? jobId = some row ∧
      row.status ∈ ImportJobStatus.active ∧ row.claimedBy = some worker

/-- Orphan recovery runs only while no other worker still holds a job. -/
def System.recoversOnlyOrphans (system : System W) (action : Action W) :
    Prop :=
  ∀ worker, action = .loop worker .recover →
    ∀ other, other ≠ worker → (system.workers other).phase.job? = none

/-- No job that has ended changes its status. -/
def System.KeepsFinal (before : System W) (_ : Action W)
    (after : System W) : Prop :=
  ∀ jobId row, before.store.job? jobId = some row →
    row.status ∈ ImportJobStatus.terminal →
    ∃ kept, after.store.job? jobId = some kept ∧ kept.status = row.status

theorem working_initial (world : W) : (System.initial world).Working := by
  intro worker jobId hjob
  cases hjob

theorem working_owned {system : System W} (hworking : system.Working) :
    system.Owned := by
  intro worker jobId hjob
  obtain ⟨row, hrow, hactive, howner⟩ := hworking worker jobId hjob
  exact ⟨row, hrow, ImportJobStatus.ne_pending_of_active hactive, howner⟩

/-- A worker that keeps its job keeps an active row. -/
theorem working_kept {host : Host W} {system next : System W}
    {action : Action W} (hworking : system.Working)
    (hok : system.recoversOnlyOrphans action)
    (hstep : system.step host action = some next) {worker : WorkerId}
    {jobId : JobId} (hbefore : (system.workers worker).phase.job? = some jobId)
    (hafter : (next.workers worker).phase.job? = some jobId) :
    ∃ row, next.store.job? jobId = some row ∧
      row.status ∈ ImportJobStatus.active ∧ row.claimedBy = some worker := by
  obtain ⟨row, hrow, hactive, howner⟩ := hworking worker jobId hbefore
  have hid := ImportStore.job?_id hrow
  rcases step_job? hstep jobId with hsame | ⟨statement, hsends, hset⟩ |
    ⟨_, _, hnone, _⟩
  · exact ⟨row, hsame.trans hrow, hactive, howner⟩
  · rw [hrow] at hset
    refine ⟨_, hset, onRow_active hactive howner ?_ ?_⟩
    · rintro outcome error rfl
      have hnamed : (JobStatement.setStatus row.id outcome error).byId =
          some jobId := congrArg some hid
      obtain ⟨mover, move, hmove, hstatement, hholds⟩ := hsends.holds hnamed
      obtain rfl := one_worker_per_job (working_owned hworking) hholds hbefore
      obtain rfl := Option.some.inj (hmove.step.symm.trans hstep)
      simp [System.apply, hmove.setStatus_releases hstatement] at hafter
    · rintro other rfl
      by_contra hne
      have hfree := hok other hsends.recover worker (fun h => hne h.symm)
      rw [hbefore] at hfree
      cases hfree
  · rw [hrow] at hnone
    cases hnone

theorem working_step {host : Host W} {system next : System W}
    {action : Action W} (hworking : system.Working)
    (hok : system.recoversOnlyOrphans action)
    (hstep : system.step host action = some next) : next.Working := by
  intro worker jobId hjob
  rcases step_workers hstep worker with
    ⟨_, hsame⟩ | ⟨move, hmove, rfl, hmoved⟩
  · exact working_kept hworking hok hstep (by rwa [hsame] at hjob) hjob
  · rcases hmove.job? (by rwa [hmoved] at hjob) with
      hbefore | ⟨hstatement, haffected⟩
    · exact working_kept hworking hok hstep hbefore hjob
    · obtain ⟨row, _, _, hafter⟩ := claimSelected_row haffected
      refine ⟨{ row with status := .running, claimedBy := some worker },
        ?_, by simp [ImportJobStatus.active], rfl⟩
      rw [System.apply, hstatement]
      exact hafter

/-- Whoever does not hold a job tests its status before writing it, and so
leaves an ended one alone. -/
theorem ended_of_notHeldBy {host : Host W} {system next : System W}
    {action : Action W} (hstep : system.step host action = some next)
    {jobId : JobId} {row : ImportJobRecord}
    (hrow : system.store.job? jobId = some row)
    (hended : row.status ∈ ImportJobStatus.terminal)
    (hfree : system.NotHeldBy action jobId) :
    ∃ kept, next.store.job? jobId = some kept ∧ kept.status = row.status := by
  rcases step_job? hstep jobId with hsame | ⟨statement, hsends, hset⟩ |
    ⟨_, _, hnone, _⟩
  · exact ⟨row, hsame.trans hrow, rfl⟩
  · rw [hrow] at hset
    refine ⟨_, hset, onRow_ended hended ?_⟩
    rw [ImportStore.job?_id hrow]
    exact hsends.not_byId hfree
  · rw [hrow] at hnone
    cases hnone

/-- While only true orphans are recovered, nobody holds an ended job. -/
theorem keepsFinal_step {host : Host W} {system next : System W}
    {action : Action W} (hworking : system.Working)
    (hstep : system.step host action = some next) :
    system.KeepsFinal action next := by
  intro jobId row hrow hended
  refine ended_of_notHeldBy hstep hrow hended fun worker _ hholds => ?_
  obtain ⟨held, hheld, hactive, _⟩ := hworking worker jobId hholds
  rw [hrow] at hheld
  cases hheld
  rw [ImportJobStatus.mem_terminal_iff] at hended
  exact hended (List.mem_cons_of_mem _ hactive)

/-- In every run in which `recover_orphans` only ever fails jobs whose worker
is gone, a job that has ended keeps its status for good. -/
theorem ended_status_never_changes (host : Host W) (world : W)
    (actions : List (Action W))
    (hadmitted : Admitted (System.step host) System.recoversOnlyOrphans
      (System.initial world) actions) :
    EveryStep (System.step host) System.KeepsFinal (System.initial world)
      actions :=
  everyStep_of_admitted
    (fun _ _ _ hworking hok hstep => working_step hworking hok hstep)
    (fun _ _ _ hworking _ hstep => keepsFinal_step hworking hstep)
    (working_initial world) hadmitted

/-- Where only these workers have started, whether a recovery fails true
orphans is told by looking at them. -/
def System.recoversOnlyOrphansAmong (workers : List WorkerId)
    (system : System W) : Action W → Prop
  | .loop worker .recover =>
      ∀ other ∈ workers, other ≠ worker →
        (system.workers other).phase.job? = none
  | _ => True

instance (workers : List WorkerId) (system : System W) (action : Action W) :
    Decidable (system.recoversOnlyOrphansAmong workers action) := by
  unfold System.recoversOnlyOrphansAmong
  split <;> infer_instance

theorem recoversOnlyOrphans_of_among {workers : List WorkerId}
    {system : System W} {action : Action W}
    (hstarted : system.Started workers)
    (hamong : system.recoversOnlyOrphansAmong workers action) :
    system.recoversOnlyOrphans action := by
  rintro worker rfl other hne
  by_cases hother : other ∈ workers
  · exact hamong other hother hne
  · rw [hstarted other hother]
    rfl

theorem admitted_of_among (host : Host W) (world : W)
    (workers : List WorkerId) {actions : List (Action W)}
    (hadmitted : Admitted (System.step host)
      (fun system action => (∀ worker ∈ action.worker?, worker ∈ workers) ∧
        system.recoversOnlyOrphansAmong workers action)
      (System.initial world) actions) :
    Admitted (System.step host) System.recoversOnlyOrphans
      (System.initial world) actions :=
  everyStep_of_admitted
    (fun _ _ _ hstarted hok hstep => started_step hstarted hok.1 hstep)
    (fun _ _ _ hstarted hok _ => recoversOnlyOrphans_of_among hstarted hok.2)
    (started_initial workers world) hadmitted

/-- Nothing to remove: enough for jobs that are plain imports. -/
def plainHost : Host Unit := ⟨fun _ world => (world, .ok ())⟩

/-- One worker elects itself, claims job 7 and starts its session. -/
def claimAndStart (worker : WorkerId) : List (Action Unit) :=
  [.client (.create 7 (.ofPaths [])), .loop worker .boot,
    .loop worker .readClock, .loop worker .acquire, .loop worker .recover,
    .loop worker (.select 7), .loop worker .claim, .loop worker .reread,
    .run worker .startSession]

/-- The session ends and its outcome is about to be written. -/
def endAndConclude (worker : WorkerId) : List (Action Unit) :=
  [.run worker (.endImport none), .run worker .leave,
    .loop worker .conclude, .loop worker .writeOutput]

/-- The lease runs out under worker 0; worker 1 takes over and fails job 7,
which worker 0 then finishes. -/
def overtaken : List (Action Unit) :=
  claimAndStart 0 ++ [.tick (leaseMicros + 1), .loop 1 .boot,
    .loop 1 .readClock, .loop 1 .acquire, .loop 1 .recover] ++
    endAndConclude 0

/-- The status of job 7 where a run ends. -/
def endStatus (actions : List (Action Unit)) : Option ImportJobStatus :=
  (System.runFrom plainHost () actions).bind fun system =>
    (system.store.job? 7).map ImportJobRecord.status

/-- The overtaken worker's terminal write turns FAILED into COMPLETED. -/
theorem overtaken_worker_rewrites_status :
    ¬ EveryStep (System.step plainHost) System.KeepsFinal (System.initial ())
      (overtaken ++ [.loop 0 .writeStatus]) := by
  intro hevery
  have hfailed : endStatus overtaken = some .failed := by decide
  have hcompleted : endStatus (overtaken ++ [.loop 0 .writeStatus]) =
      some .completed := by decide
  simp only [endStatus, Option.bind_eq_some_iff, Option.map_eq_some_iff]
    at hfailed hcompleted
  obtain ⟨before, hbefore, row, hrow, hstatus⟩ := hfailed
  obtain ⟨after, hafter, last, hlast, hrevived⟩ := hcompleted
  obtain ⟨middle, hmiddle, hstep⟩ := exec_append_eq_some.mp hafter
  obtain rfl := Option.some.inj (hmiddle.symm.trans hbefore)
  obtain ⟨final, hfinal, hend⟩ := exec_cons_eq_some.mp hstep
  obtain rfl := Option.some.inj hend
  obtain ⟨kept, hkept, hsame⟩ :=
    everyStep_concat hevery hbefore hfinal 7 row hrow (by
      rw [hstatus]
      decide)
  obtain rfl := Option.some.inj (hkept.symm.trans hlast)
  rw [hrevived, hstatus] at hsame
  cases hsame

/-- Worker 0 completes job 7, claims job 8 and crashes; worker 1 takes over and
fails job 8, and the user aborts both. -/
def succeededAfterCrash : List (Action Unit) :=
  claimAndStart 0 ++ endAndConclude 0 ++ [.loop 0 .writeStatus,
    .client (.create 8 (.ofPaths [])), .loop 0 .readClock, .loop 0 .acquire,
    .loop 0 (.select 8), .loop 0 .claim, .loop 0 .crash,
    .tick (leaseMicros + 1), .loop 1 .boot, .loop 1 .readClock,
    .loop 1 .acquire, .loop 1 .recover, .client (.abort 7),
    .client (.abort 8)]

theorem ended_status_never_changes_takeover :
    (System.runFrom plainHost () succeededAfterCrash).map (fun system =>
      [7, 8].map fun jobId =>
        (system.store.job? jobId).map ImportJobRecord.status) =
      some [some .completed, some .failed] ∧
    EveryStep (System.step plainHost) System.KeepsFinal (System.initial ())
      succeededAfterCrash :=
  ⟨by decide, ended_status_never_changes plainHost () succeededAfterCrash
    (admitted_of_among plainHost () [0, 1] (by decide))⟩

end Beetkeeper
