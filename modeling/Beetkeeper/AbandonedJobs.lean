/-
Whether a worker that stays alive ever leaves a job behind.  From the claim to
the terminal write nearly every database failure is absorbed or retried; the
one that is not hits the re-read of `claim_next`, after the claim has been
committed.
-/
import Beetkeeper.FinalStatus
import Beetkeeper.StoreRefinement

namespace Beetkeeper

open Transition

variable {W : Type}

/-- The step is the last attempt of a `_finalize_job` failing. -/
def System.exhausts (system : System W) : Action W → Bool
  | .loop worker (.fault _) =>
      match (system.workers worker).phase with
      | .finalizing _ _ _ _ attempt _ => decide (finalizeAttempts ≤ attempt)
      | _ => false
  | _ => false

/-- The step is the re-read of `claim_next` failing. -/
def System.losesClaim (system : System W) : Action W → Bool
  | .loop worker (.fault _) =>
      match (system.workers worker).phase with
      | .claimed _ => true
      | _ => false
  | _ => false

/-- No terminal write is given up, and no re-read after a claim fails. -/
def System.keepsClaims (system : System W) (action : Action W) : Prop :=
  system.exhausts action = false ∧ system.losesClaim action = false

instance (system : System W) (action : Action W) :
    Decidable (system.keepsClaims action) :=
  inferInstanceAs (Decidable (_ ∧ _))

/-- A living worker whose cycle has ended has left no job of its own
active. -/
def System.NothingAbandoned (system : System W) : Prop :=
  ∀ worker, (system.workers worker).phase = .idle →
    ∀ jobId row, system.store.job? jobId = some row →
      row.status ∈ ImportJobStatus.active → row.claimedBy ≠ some worker

/-- A living worker is at work on every active job it has claimed. -/
def System.Attended (system : System W) : Prop :=
  ∀ worker, (system.workers worker).phase ≠ .dead →
    ∀ jobId row, system.store.job? jobId = some row →
      row.status ∈ ImportJobStatus.active → row.claimedBy = some worker →
      (system.workers worker).phase.job? = some jobId

/-- How a worker comes to let go of a job in its loop. -/
theorem loopMove_releases {system : System W} {worker : WorkerId}
    {action : LoopAction} {move : Move W} {jobId : JobId}
    (hmove : system.loopMove worker action = some move)
    (hjob : (system.workers worker).phase.job? = some jobId) :
    move.phase.job? = some jobId ∨ move.phase = .dead ∨
    (∃ outcome error,
      move.statement = .job (.setStatus jobId outcome error)) ∨
    system.exhausts (.loop worker action) = true ∨
    system.losesClaim (.loop worker action) = true ∨
    system.store.get jobId = none := by
  unfold System.loopMove at hmove
  split at hmove <;> rename_i hphase <;>
    simp only [hphase, Phase.job?, reduceCtorEq, Option.some.injEq] at hjob
  all_goals first
    | subst hjob
    | skip
  all_goals repeat' split at hmove
  all_goals cases hmove
  all_goals first
    | exact Or.inl rfl
    | exact Or.inr (Or.inl rfl)
    | exact Or.inr (Or.inr (Or.inl ⟨_, _, rfl⟩))
    | skip
  · rename_i hget
    obtain ⟨_, _, _, hid⟩ := ImportStore.get_eq_some hget
    exact Or.inl (congrArg some hid)
  · exact Or.inr (Or.inr (Or.inr (Or.inr (Or.inr (by assumption)))))
  · rename_i hattempts
    refine Or.inr (Or.inr (Or.inr (Or.inl ?_)))
    simp only [System.exhausts, hphase, decide_eq_true_eq]
    exact not_lt.mp hattempts
  · refine Or.inr (Or.inr (Or.inr (Or.inr (Or.inl ?_))))
    simp only [System.losesClaim, hphase]

/-- A running job stays with its worker until the task group is left, and
beyond. -/
theorem runMove_keeps {host : Host W} {system : System W}
    {worker : WorkerId} {run : RunState} {action : RunAction} {move : Move W}
    (hmove : system.runMove host worker run action = some move) :
    move.phase.job? = some run.job.id := by
  rcases runMove_cases hmove with ⟨next, _, _, hphase, hjob, _⟩ |
    ⟨_, _, hphase, _⟩
  · rw [hphase, Phase.job?, hjob]
  · rw [hphase]
    rfl

/-- Where the steps keep the claims, a living worker lets go of a job with
the terminal write only. -/
theorem WorkerMove.releases {host : Host W} {system : System W}
    {worker : WorkerId} {action : Action W} {move : Move W} {jobId : JobId}
    (hmove : WorkerMove host system worker action move)
    (hok : system.keepsClaims action)
    (hjob : (system.workers worker).phase.job? = some jobId)
    (hknown : (system.store.job? jobId).isSome = true) :
    move.phase.job? = some jobId ∨ move.phase = .dead ∨
    ∃ outcome error,
      move.statement = .job (.setStatus jobId outcome error) := by
  cases hmove with
  | loop hmove =>
      rcases loopMove_releases hmove hjob with hkept | hdead | hwritten |
        hexhausted | hlost | hgone
      · exact Or.inl hkept
      · exact Or.inr (Or.inl hdead)
      · exact Or.inr (Or.inr hwritten)
      · rw [hok.1] at hexhausted
        cases hexhausted
      · rw [hok.2] at hlost
        cases hlost
      · rw [ImportStore.get, Option.map_eq_none_iff] at hgone
        rw [hgone] at hknown
        cases hknown
  | run hphase hmove =>
      rw [hphase] at hjob
      exact Or.inl ((runMove_keeps hmove).trans hjob)

/-- The job a statement parks or takes up again. -/
def JobStatement.reopens? : JobStatement → Option JobId
  | .setAwaiting request => some request.jobId
  | .takeDecision jobId => some jobId
  | _ => none

/-- A row becomes active by a claim, or by a decision that is requested or
taken. -/
theorem onRow_active_of {statement : JobStatement} {row : ImportJobRecord}
    (hactive : (statement.update.onRow row).status ∈ ImportJobStatus.active) :
    row.status ∈ ImportJobStatus.active ∨
    (statement.reopens? = some row.id ∧
      statement.update.applies row = true) ∨
    ∃ worker, statement = .claimSelected row.id worker ∧
      row.status = .pending := by
  unfold JobUpdate.onRow at hactive
  split at hactive
  · rename_i happlies
    cases statement with
    | setAwaiting request =>
        have hid : row.id = request.jobId := by
          simpa [JobStatement.update, setAwaiting] using happlies
        exact Or.inr (Or.inl ⟨congrArg some hid.symm, happlies⟩)
    | takeDecision jobId =>
        have hid : row.id = jobId ∧ row.submittedDecision.isSome = true := by
          simpa [JobStatement.update, takeDecision] using happlies
        exact Or.inr (Or.inl ⟨congrArg some hid.1.symm, happlies⟩)
    | claimSelected jobId worker =>
        simp only [JobStatement.update, claimSelected, Bool.and_eq_true,
          decide_eq_true_eq] at happlies
        exact Or.inr (Or.inr ⟨worker, by rw [happlies.1], happlies.2⟩)
    | setStatus jobId outcome error =>
        exact absurd hactive outcome.status_not_active
    | recoverOrphans worker =>
        simp [JobStatement.update, recoverOrphans, ImportJobStatus.active]
          at hactive
    | setOutput jobId output => exact Or.inl hactive
    | submitDecision jobId decision => exact Or.inl hactive
    | requestAbort jobId => exact Or.inl hactive
  · exact Or.inl hactive

theorem byId_of_reopens? {statement : JobStatement} {jobId : JobId}
    (hreopens : statement.reopens? = some jobId) :
    statement.byId = some jobId := by
  cases statement with
  | setAwaiting _ => exact hreopens
  | takeDecision _ => exact hreopens
  | _ => cases hreopens

/-- The claim is sent by the worker it names. -/
theorem Sends.claimer {host : Host W} {system : System W} {action : Action W}
    {jobId : JobId} {worker : WorkerId}
    (hsends : Sends host system action (.claimSelected jobId worker)) :
    ∃ move, WorkerMove host system worker action move ∧
      move.statement = .job (.claimSelected jobId worker) := by
  cases hsends with
  | @worker mover _ move _ hmove hstatement =>
      have hissues := hmove.issues hstatement
      generalize (system.workers mover).phase = phase at hissues
      cases hissues with
      | claim => exact ⟨move, hmove, hstatement⟩

/-- A row that is active after a step was active before, or has been parked or
taken up again, or has just been claimed; only a claim names a new worker. -/
theorem active_row_cases {host : Host W} {system next : System W}
    {action : Action W} (hstep : system.step host action = some next)
    {worker : WorkerId} {jobId : JobId} {row : ImportJobRecord}
    (hrow : next.store.job? jobId = some row)
    (hactive : row.status ∈ ImportJobStatus.active)
    (howner : row.claimedBy = some worker) :
    (∃ old, system.store.job? jobId = some old ∧
      old.claimedBy = some worker ∧
      (old.status ∈ ImportJobStatus.active ∨
        ∃ statement, Sends host system action statement ∧
          statement.reopens? = some jobId ∧
          statement.update.applies old = true)) ∨
    ∃ move, WorkerMove host system worker action move ∧
      move.statement = .job (.claimSelected jobId worker) ∧
      system.store.affectedRows (claimSelected jobId worker) = 1 := by
  rcases step_job? hstep jobId with hsame | ⟨statement, hsends, hset⟩ |
    ⟨settings, _, _, hnew⟩
  · exact Or.inl ⟨row, hsame.symm.trans hrow, howner, Or.inl hactive⟩
  · obtain ⟨old, hold, rfl⟩ :=
      Option.map_eq_some_iff.mp (hset.symm.trans hrow)
    obtain rfl := ImportStore.job?_id hold
    rcases onRow_active_of hactive with hbefore | ⟨hreopens, happlies⟩ |
      ⟨claimer, rfl, hpending⟩
    · -- an active row is not PENDING, so no claim applies to it
      have hclaimed := ImportJobStatus.ne_pending_of_active hbefore
      exact Or.inl ⟨old, hold,
        (onRow_claimed statement hclaimed).2.symm.trans howner,
        Or.inl hbefore⟩
    · have hother : statement.isClaim = false := by
        cases statement with
        | claimSelected _ _ => cases hreopens
        | _ => rfl
      rw [StoreProcesses.onRow_claimedBy hother] at howner
      exact Or.inl ⟨old, hold, howner,
        Or.inr ⟨statement, hsends, hreopens, happlies⟩⟩
    · rw [JobStatement.update, claimSelected_onRow rfl, if_pos hpending]
        at howner
      obtain rfl := Option.some.inj howner
      obtain ⟨move, hmove, hstatement⟩ := hsends.claimer
      exact Or.inr ⟨move, hmove, hstatement,
        ImportStore.affectedRows_claimSelected.mpr ⟨old, hold, hpending⟩⟩
  · obtain rfl := Option.some.inj (hnew.symm.trans hrow)
    cases howner

/-- An active row after a step names a worker that holds the job already, or
one whose claim has just won it. -/
theorem active_held {host : Host W} {system next : System W}
    {action : Action W} (howned : system.Owned)
    (hattended : system.Attended)
    (hstep : system.step host action = some next) {worker : WorkerId}
    (halive : (system.workers worker).phase ≠ .dead) {jobId : JobId}
    {row : ImportJobRecord} (hrow : next.store.job? jobId = some row)
    (hactive : row.status ∈ ImportJobStatus.active)
    (howner : row.claimedBy = some worker) :
    (system.workers worker).phase.job? = some jobId ∨
    ∃ move, WorkerMove host system worker action move ∧
      move.statement = .job (.claimSelected jobId worker) ∧
      system.store.affectedRows (claimSelected jobId worker) = 1 := by
  rcases active_row_cases hstep hrow hactive howner with
    ⟨old, hold, hclaimant, hbefore | ⟨statement, hsends, hreopens, _⟩⟩ |
    hclaims
  · exact Or.inl (hattended worker halive jobId old hold hbefore hclaimant)
  · obtain ⟨holder, _, _, _, hholds⟩ :=
      hsends.holds (byId_of_reopens? hreopens)
    obtain ⟨found, hfound, _, hheld⟩ := howned holder jobId hholds
    obtain rfl := Option.some.inj (hold.symm.trans hfound)
    obtain rfl := Option.some.inj (hheld.symm.trans hclaimant)
    exact Or.inl hholds
  · exact Or.inr hclaims

theorem attended_initial (world : W) : (System.initial world).Attended := by
  intro worker _ jobId row hrow
  cases hrow

theorem attended_step {host : Host W} {system next : System W}
    {action : Action W} (howned : system.Owned)
    (hattended : system.Attended) (hok : system.keepsClaims action)
    (hstep : system.step host action = some next) : next.Attended := by
  intro worker halive jobId row hrow hactive howner
  rcases step_workers hstep worker with
    ⟨hother, hsame⟩ | ⟨move, hmove, rfl, hmoved⟩
  · rw [hsame] at halive ⊢
    rcases active_held howned hattended hstep halive hrow hactive howner with
      hheld | ⟨move, hmove, _, _⟩
    · exact hheld
    · exact absurd hmove.worker? hother
  · rw [hmoved] at halive ⊢
    rcases active_held howned hattended hstep hmove.alive hrow hactive howner
      with hheld | ⟨claim, hclaim, hstatement, hwon⟩
    · have hknown : (system.store.job? jobId).isSome = true := by
        obtain ⟨found, hfound, _⟩ := howned worker jobId hheld
        rw [hfound]
        rfl
      rcases hmove.releases hok hheld hknown with hkept | hdead |
        ⟨outcome, error, hstatement⟩
      · exact hkept
      · exact absurd hdead halive
      · -- the terminal write left a row that is not active
        rw [apply_job?_statement hstatement] at hrow
        obtain ⟨old, hold, rfl⟩ := Option.map_eq_some_iff.mp hrow
        rw [JobStatement.update,
          setStatus_onRow (ImportStore.job?_id hold)] at hactive
        exact absurd hactive outcome.status_not_active
    · have happly := hclaim.step.symm.trans hmove.step
      have hphase := congrArg
        (fun system => (system.workers worker).phase.job?)
        (Option.some.inj happly)
      simp only [System.apply, Function.update_self] at hphase
      rw [← hphase, hclaim.claimed hstatement hwon]
      rfl

/-- Every job that is held is its holder's, and every active job of a living
worker is held. -/
structure System.Staffed (system : System W) : Prop where
  owned : system.Owned
  attended : system.Attended

/-- Whatever the database does to it, a worker that stays alive abandons no
job, as long as no re-read of `claim_next` fails; terminal writes that are
given up after their last attempt are left aside. -/
theorem no_claim_is_abandoned (host : Host W) (world : W)
    (actions : List (Action W))
    (hadmitted : Admitted (System.step host) System.keepsClaims
      (System.initial world) actions) (system : System W)
    (hrun : System.runFrom host world actions = some system) :
    system.NothingAbandoned := by
  have hstaffed : system.Staffed :=
    invariant_of_admitted
      (fun _ _ _ hbefore hok hstep => ⟨owned_step hbefore.owned hstep,
        attended_step hbefore.owned hbefore.attended hok hstep⟩)
      ⟨owned_initial world, attended_initial world⟩ hadmitted hrun
  intro worker hidle jobId row hrow hactive howner
  have hjob := hstaffed.attended worker (hidle ▸ nofun) jobId row hrow
    hactive howner
  rw [hidle] at hjob
  cases hjob

/-- Worker 0 claims job 7 and fails to read it back. -/
def unreadClaim : List (Action Unit) :=
  [.client (.create 7 (.ofPaths [])), .loop 0 .boot, .loop 0 .readClock,
    .loop 0 .acquire, .loop 0 .recover, .loop 0 (.select 7), .loop 0 .claim,
    .loop 0 (.fault "database is locked")]

theorem unread_claim_is_abandoned :
    Admitted (System.step plainHost)
      (fun system action => system.exhausts action = false)
      (System.initial ()) unreadClaim ∧
    ∃ system, System.runFrom plainHost () unreadClaim = some system ∧
      ¬ system.NothingAbandoned := by
  refine ⟨by decide, ?_⟩
  have hleft : (System.runFrom plainHost () unreadClaim).map (fun system =>
      ((system.workers 0).phase, (system.store.job? 7).map fun row =>
        (row.status, row.claimedBy))) =
      some (.idle, some (.running, some 0)) := by
    decide
  obtain ⟨system, hrun, hview⟩ := Option.map_eq_some_iff.mp hleft
  obtain ⟨hidle, hjob⟩ := Prod.mk.inj hview
  obtain ⟨row, hrow, hcolumns⟩ := Option.map_eq_some_iff.mp hjob
  obtain ⟨hstatus, howner⟩ := Prod.mk.inj hcolumns
  refine ⟨system, hrun, fun hnothing => ?_⟩
  refine hnothing 0 hidle 7 row hrow ?_ howner
  rw [hstatus]
  decide

/-- The abort flag cannot be read and the first terminal write fails; the job
is FAILED all the same. -/
def faultyEnd : List (Action Unit) :=
  claimAndStart 0 ++ [.run 0 (.endImport none), .run 0 .leave,
    .loop 0 (.fault "database is locked"), .loop 0 .writeOutput,
    .loop 0 (.fault "database is locked"), .loop 0 .writeOutput,
    .loop 0 .writeStatus]

theorem no_claim_is_abandoned_after_faults :
    ∃ system, System.runFrom plainHost () faultyEnd = some system ∧
      (system.workers 0).phase = .idle ∧ system.NothingAbandoned := by
  have hended : (System.runFrom plainHost () faultyEnd).map (fun system =>
      (system.workers 0).phase) = some .idle := by
    decide
  obtain ⟨system, hrun, hidle⟩ := Option.map_eq_some_iff.mp hended
  exact ⟨system, hrun, hidle,
    no_claim_is_abandoned plainHost () faultyEnd (by decide) system hrun⟩

end Beetkeeper
