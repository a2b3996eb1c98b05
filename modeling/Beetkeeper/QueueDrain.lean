/-
What a restart can always achieve.  Whatever the other processes left behind
(a job half imported, a lease not given back, answers nobody consumed), a
worker that starts afresh takes the lease over once it has run out, fails the
orphans and runs the whole queue to its end.
-/
import Mathlib.Order.WellFounded
import Beetkeeper.AbandonedJobs

namespace Beetkeeper

open Transition

variable {W : Type}

/-- A step of this worker without a fault, or the clock. -/
def Action.calm (worker : WorkerId) : Action W → Bool
  | .loop _ (.fault _) => false
  | .loop _ .crash => false
  | .loop mover _ => decide (mover = worker)
  | .run _ (.bridgeFault _) => false
  | .run _ (.endImport (some _)) => false
  | .run _ .renewFault => false
  | .run _ .flushFault => false
  | .run mover _ => decide (mover = worker)
  | .tick _ => true
  | _ => false

/-- What the steps of one worker depend on, the world apart. -/
structure Situation where
  worker : Worker
  store : ImportStore
  clock : Nat

def System.situation (system : System W) (worker : WorkerId) : Situation :=
  ⟨system.workers worker, system.store, system.clock⟩

/-- The worker can bring this situation about by calm steps. -/
def System.CanReach (host : Host W) (system : System W) (worker : WorkerId)
    (goal : Situation) : Prop :=
  ∃ more final, exec (System.step host) system more = some final ∧
    (∀ action ∈ more, action.calm worker = true) ∧
    final.situation worker = goal

section Reach

variable {host : Host W} {system : System W} {worker : WorkerId}
  {here : Situation}

theorem canReach_refl (host : Host W) (system : System W)
    (worker : WorkerId) :
    system.CanReach host worker (system.situation worker) :=
  ⟨[], system, rfl, nofun, rfl⟩

/-- One more calm step, wherever exactly it leads. -/
theorem System.CanReach.step_of (hreach : system.CanReach host worker here)
    (action : Action W) (hcalm : action.calm worker = true)
    {P : Situation → Prop}
    (hstep : ∀ final : System W, final.situation worker = here →
      ∃ next, final.step host action = some next ∧
        P (next.situation worker)) :
    ∃ goal, system.CanReach host worker goal ∧ P goal := by
  obtain ⟨more, final, hexec, hmore, hhere⟩ := hreach
  obtain ⟨next, hnext, hgoal⟩ := hstep final hhere
  refine ⟨_, ⟨more ++ [action], next, exec_append_eq_some.mpr
    ⟨final, hexec, exec_cons_eq_some.mpr ⟨next, hnext, rfl⟩⟩, ?_, rfl⟩, hgoal⟩
  intro other hother
  rcases List.mem_append.mp hother with hold | hnew
  · exact hmore other hold
  · obtain rfl := List.mem_singleton.mp hnew
    exact hcalm

theorem System.CanReach.step (hreach : system.CanReach host worker here)
    (action : Action W) (hcalm : action.calm worker = true)
    {goal : Situation}
    (hstep : ∀ final : System W, final.situation worker = here →
      ∃ next, final.step host action = some next ∧
        next.situation worker = goal) :
    system.CanReach host worker goal := by
  obtain ⟨_, hgoal, rfl⟩ := hreach.step_of action (P := (· = goal)) hcalm
    hstep
  exact hgoal

/-- Where a move of the worker leads. -/
def Situation.after (here : Situation) (worker : WorkerId) (phase : Phase)
    (wasLeader : Bool) (statement : Statement) : Situation :=
  ⟨⟨phase, wasLeader⟩, here.store.perform worker statement, here.clock⟩

theorem situation_apply (system : System W) (worker : WorkerId)
    (move : Move W) :
    (system.apply worker move).situation worker =
      (system.situation worker).after worker move.phase move.wasLeader
        move.statement := by
  simp [System.situation, System.apply, Situation.after]

/-- A step of the leader loop. -/
theorem System.CanReach.loop (hreach : system.CanReach host worker here)
    (action : LoopAction) (statement : Statement) {phase : Phase}
    {wasLeader : Bool}
    (hcalm : (Action.loop worker action : Action W).calm worker = true)
    (hmove : ∀ final : System W, final.situation worker = here →
      ∃ move, final.loopMove worker action = some move ∧
        move.phase = phase ∧ move.wasLeader = wasLeader ∧
        move.statement = statement) :
    system.CanReach host worker
      (here.after worker phase wasLeader statement) := by
  refine hreach.step _ hcalm fun final hhere => ?_
  obtain ⟨move, hmoves, rfl, rfl, rfl⟩ := hmove final hhere
  refine ⟨final.apply worker move, by simp [System.step, hmoves], ?_⟩
  rw [situation_apply, hhere]

/-- A step inside the running job. -/
theorem System.CanReach.run (hreach : system.CanReach host worker here)
    (action : RunAction) (statement : Statement) {run : RunState}
    {phase : Phase} (hrunning : here.worker.phase = .running run)
    (hcalm : (Action.run worker action : Action W).calm worker = true)
    (hmove : ∀ final : System W, final.situation worker = here →
      ∃ move, final.runMove host worker run action = some move ∧
        move.phase = phase ∧ move.wasLeader = here.worker.wasLeader ∧
        move.statement = statement) :
    system.CanReach host worker
      (here.after worker phase here.worker.wasLeader statement) := by
  refine hreach.step _ hcalm fun final hhere => ?_
  obtain ⟨move, hmoves, rfl, hleader, rfl⟩ := hmove final hhere
  have hphase : (final.workers worker).phase = .running run := by
    rw [← hrunning, ← hhere]
    rfl
  refine ⟨final.apply worker move, by
    simp [System.step, hphase, hmoves], ?_⟩
  rw [situation_apply, hhere, hleader]

theorem System.CanReach.tick (hreach : system.CanReach host worker here)
    (micros : Nat) :
    system.CanReach host worker
      { here with clock := here.clock + micros } := by
  refine hreach.step (.tick micros) rfl fun final hhere => ?_
  subst hhere
  exact ⟨_, rfl, rfl⟩

end Reach

section Job

variable {host : Host W} {system : System W} {worker : WorkerId}
  {jobId : JobId} {store : ImportStore} {wasLeader : Bool} {clock : Nat}

theorem situation_eq {final : System W} {here : Situation}
    (hhere : final.situation worker = here) :
    final.workers worker = here.worker ∧ final.store = here.store ∧
      final.clock = here.clock := by
  subst hhere
  exact ⟨rfl, rfl, rfl⟩

/-- A run whose import has ended leaves its task group. -/
theorem System.CanReach.leave {run : RunState} {failure : Option String}
    (hreach : system.CanReach host worker
      ⟨⟨.running run, wasLeader⟩, store, clock⟩)
    (hended : run.thread = .ended failure) (hrenewing : run.renewing = none)
    (hflushing : run.flushing = none) :
    system.CanReach host worker
      ⟨⟨.concluding run.job.id run.output failure, wasLeader⟩, store,
        clock⟩ := by
  refine hreach.run .leave .read rfl (by simp [Action.calm])
    fun final hhere => ?_
  obtain ⟨hworker, _, _⟩ := situation_eq hhere
  simp [System.runMove, hended, hrenewing, hflushing, System.moveTo, hworker]

/-- An import that is under way can end. -/
theorem System.CanReach.endImport {run : RunState}
    (hreach : system.CanReach host worker
      ⟨⟨.running run, wasLeader⟩, store, clock⟩)
    (hthread : run.thread = .importing) :
    system.CanReach host worker
      ⟨⟨.running { run with thread := .ended none }, wasLeader⟩, store,
        clock⟩ := by
  refine hreach.run (.endImport none) .read rfl (by simp [Action.calm])
    fun final hhere => ?_
  obtain ⟨hworker, _, _⟩ := situation_eq hhere
  simp [System.runMove, hthread, System.keepRunning, System.moveTo, hworker]

/-- A clean slate removes its entry or fails. -/
theorem cleanSlate_step (host : Host W) {row : ImportJobRecord}
    (hclean : row.toView.isCleanSlate = true) (final : System W)
    (hhere : final.situation worker =
      ⟨⟨.running (.initial row.toView), wasLeader⟩, store, clock⟩) :
    ∃ next, final.step host (.run worker .cleanSlate) = some next ∧
      ∃ thread, next.situation worker =
        ⟨⟨.running { RunState.initial row.toView with thread := thread },
          wasLeader⟩, store, clock⟩ ∧
        (thread = .importing ∨ ∃ message, thread = .ended (some message)) := by
  obtain ⟨hworker, _, _⟩ := situation_eq hhere
  have hphase : (final.workers worker).phase =
      .running (.initial row.toView) := by rw [hworker]
  rcases hresult : host.cleanSlate row.toView final.world with
    ⟨world, message | _⟩
  · have hmove : final.runMove host worker (.initial row.toView) .cleanSlate =
        some { final.keepRunning worker { RunState.initial row.toView with
          thread := .ended (some message) } with world := world } := by
      simp [System.runMove, RunState.initial, hclean, hresult]
    refine ⟨_, by simp [System.step, hphase, hmove]; rfl,
      .ended (some message), ?_, Or.inr ⟨message, rfl⟩⟩
    rw [situation_apply, hhere]
    simp [Situation.after, System.keepRunning, System.moveTo, hworker,
      ImportStore.perform]
  · have hmove : final.runMove host worker (.initial row.toView) .cleanSlate =
        some { final.keepRunning worker { RunState.initial row.toView with
          thread := .importing } with world := world } := by
      simp [System.runMove, RunState.initial, hclean, hresult]
    refine ⟨_, by simp [System.step, hphase, hmove]; rfl,
      .importing, ?_, Or.inl rfl⟩
    rw [situation_apply, hhere]
    simp [Situation.after, System.keepRunning, System.moveTo, hworker,
      ImportStore.perform]

/-- A claimed job is run to the end of its import, whatever becomes of it. -/
theorem System.CanReach.import {row : ImportJobRecord}
    (hreach : system.CanReach host worker
      ⟨⟨.claimed jobId, wasLeader⟩, store, clock⟩)
    (hrow : store.job? jobId = some row) :
    ∃ output failure, system.CanReach host worker
      ⟨⟨.concluding jobId output failure, wasLeader⟩, store, clock⟩ := by
  have hget : store.get jobId = some row.toView := by
    simp [ImportStore.get, hrow]
  obtain rfl : row.id = jobId := ImportStore.job?_id hrow
  have hstarted : system.CanReach host worker
      ⟨⟨.running (.initial row.toView), wasLeader⟩, store, clock⟩ := by
    refine hreach.loop .reread .read (by simp [Action.calm])
      fun final hhere => ?_
    obtain ⟨hworker, hstore, _⟩ := situation_eq hhere
    simp [System.loopMove, hworker, hstore, hget, System.moveTo]
  by_cases hclean : row.toView.isCleanSlate = true
  · obtain ⟨_, hgoal, thread, rfl, hthread⟩ := hstarted.step_of
      (.run worker .cleanSlate)
      (P := fun goal => ∃ thread, goal =
          ⟨⟨.running { RunState.initial row.toView with thread := thread },
            wasLeader⟩, store, clock⟩ ∧
          (thread = .importing ∨ ∃ message, thread = .ended (some message)))
      (by simp [Action.calm]) (cleanSlate_step host hclean)
    rcases hthread with rfl | ⟨message, rfl⟩
    · exact ⟨_, _, (hgoal.endImport rfl).leave rfl rfl rfl⟩
    · exact ⟨_, _, hgoal.leave rfl rfl rfl⟩
  · have himporting : system.CanReach host worker
        ⟨⟨.running { RunState.initial row.toView with thread := .importing },
          wasLeader⟩, store, clock⟩ := by
      refine hstarted.run .startSession .read rfl (by simp [Action.calm])
        fun final hhere => ?_
      obtain ⟨hworker, _, _⟩ := situation_eq hhere
      simp [System.runMove, RunState.initial, hclean, System.keepRunning,
        System.moveTo, hworker]
    exact ⟨_, _, (himporting.endImport rfl).leave rfl rfl rfl⟩

/-- What `_finalize_job` writes. -/
def ImportStore.finalized (store : ImportStore) (jobId : JobId)
    (output : String) (outcome : JobOutcome) (error : Option String) :
    ImportStore :=
  (store.execute (setOutput jobId output)).execute
    (setStatus jobId outcome.status error)

/-- A run that has been left reaches its terminal write. -/
theorem System.CanReach.finalize {output : OutputBuffer}
    {failure : Option String}
    (hreach : system.CanReach host worker
      ⟨⟨.concluding jobId output failure, wasLeader⟩, store, clock⟩) :
    ∃ text outcome error, system.CanReach host worker
      ⟨⟨.idle, wasLeader⟩, store.finalized jobId text outcome error,
        clock⟩ := by
  have hconcluded : ∃ final outcome error, system.CanReach host worker
      ⟨⟨.finalizing jobId final outcome error 1 false, wasLeader⟩, store,
        clock⟩ := by
    cases failure with
    | some message =>
        refine ⟨output.append s!"Import failed: {message}", .failed,
          some message, hreach.loop .conclude .read (by simp [Action.calm])
            fun final hhere => ?_⟩
        obtain ⟨hworker, _, _⟩ := situation_eq hhere
        simp [System.loopMove, hworker, System.moveTo]
    | none =>
        by_cases habort : store.isAbortRequested jobId = true
        · refine ⟨output.append "Import aborted.", .aborted, none,
            hreach.loop .conclude .read (by simp [Action.calm])
              fun final hhere => ?_⟩
          obtain ⟨hworker, hstore, _⟩ := situation_eq hhere
          simp [System.loopMove, hworker, hstore, habort, System.moveTo]
        · refine ⟨output.append "Import completed.", .completed, none,
            hreach.loop .conclude .read (by simp [Action.calm])
              fun final hhere => ?_⟩
          obtain ⟨hworker, hstore, _⟩ := situation_eq hhere
          simp [System.loopMove, hworker, hstore, habort, System.moveTo]
  obtain ⟨final, outcome, error, hfinalizing⟩ := hconcluded
  have hwritten : system.CanReach host worker
      ⟨⟨.finalizing jobId final outcome error 1 true, wasLeader⟩,
        store.execute (setOutput jobId final.text), clock⟩ := by
    refine hfinalizing.loop .writeOutput (.job (.setOutput jobId final.text))
      (by simp [Action.calm]) fun reached hhere => ?_
    obtain ⟨hworker, _, _⟩ := situation_eq hhere
    simp [System.loopMove, hworker, System.moveTo]
  refine ⟨final.text, outcome, error, hwritten.loop .writeStatus
    (.job (.setStatus jobId outcome error)) (by simp [Action.calm])
      fun reached hhere => ?_⟩
  obtain ⟨hworker, _, _⟩ := situation_eq hhere
  simp [System.loopMove, hworker, System.moveTo]

/-- The terminal write ends the job and leaves the other rows alone. -/
theorem job?_finalized (store : ImportStore) (jobId : JobId) (output : String)
    (outcome : JobOutcome) (error : Option String) (other : JobId) :
    (store.finalized jobId output outcome error).job? other =
      (store.job? other).map fun row =>
        if other = jobId then
          { row with
            status := outcome.status, pendingDecision := none,
            error := error.or row.error, output := some output }
        else row := by
  rw [ImportStore.finalized, ImportStore.job?_execute,
    ImportStore.job?_execute, Option.map_map]
  cases hrow : store.job? other with
  | none => rfl
  | some row =>
      obtain rfl := ImportStore.job?_id hrow
      by_cases hsame : row.id = jobId
      · simp [JobUpdate.onRow, setOutput, setStatus, hsame]
      · simp [JobUpdate.onRow, setOutput, setStatus, hsame]

/-- The worker leads and holds the lease, and no job is active. -/
structure Leads (worker : WorkerId) (store : ImportStore) : Prop where
  held : ∃ lock, store.lock = some lock ∧ lock.holder = some worker
  quiet : ∀ jobId row, store.job? jobId = some row →
    row.status ∉ ImportJobStatus.active

/-- The holder of the lease renews it, whatever the time. -/
theorem Leads.acquireLock (hleads : Leads worker store) (now : Nat) :
    (store.acquireLock worker now leaseMicros).2 = true := by
  obtain ⟨lock, hlock, hholder⟩ := hleads.held
  simp [ImportStore.acquireLock, hlock, ImportStore.lockAvailable, hholder]

/-- One job has been run to its end, and no other row was touched. -/
structure Ran (worker : WorkerId) (jobId : JobId)
    (before after : ImportStore) : Prop where
  ended : ∃ row, after.job? jobId = some row ∧
    row.status ∈ ImportJobStatus.terminal ∧ row.claimedBy = some worker
  others : ∀ other, other ≠ jobId → after.job? other = before.job? other

theorem Ran.leads (hran : ∃ before, Leads worker before ∧
      Ran worker jobId before store)
    (hheld : ∃ lock, store.lock = some lock ∧ lock.holder = some worker) :
    Leads worker store where
  held := hheld
  quiet := by
    obtain ⟨before, hleads, hran⟩ := hran
    intro other row hrow hactive
    by_cases hsame : other = jobId
    · subst hsame
      obtain ⟨done, hdone, hended, _⟩ := hran.ended
      obtain rfl := Option.some.inj (hdone.symm.trans hrow)
      exact ImportJobStatus.mem_terminal_iff.mp hended
        (List.mem_cons_of_mem _ hactive)
    · rw [hran.others other hsame] at hrow
      exact hleads.quiet other row hrow hactive

/-- What a claim and the terminal write after it come to. -/
theorem ran_finalized (worker : WorkerId) {row : ImportJobRecord}
    (hrow : store.job? jobId = some row) (hpending : row.status = .pending)
    (text : String) (outcome : JobOutcome) (error : Option String) :
    Ran worker jobId store
      ((store.execute (claimSelected jobId worker)).finalized jobId text
        outcome error) where
  ended := by
    obtain ⟨found, hfound, _, hclaimed⟩ := claimSelected_row
      (ImportStore.affectedRows_claimSelected.mpr ⟨row, hrow, hpending⟩)
    have hdone := job?_finalized (store.execute (claimSelected jobId worker))
      jobId text outcome error jobId
    rw [hclaimed, Option.map_some, if_pos rfl] at hdone
    exact ⟨_, hdone, outcome.status_terminal, rfl⟩
  others := by
    intro other hne
    rw [job?_finalized, ImportStore.job?_execute, Option.map_map]
    cases hother : store.job? other with
    | none => rfl
    | some found =>
        obtain rfl := ImportStore.job?_id hother
        simp [JobUpdate.onRow, claimSelected, hne]

/-- The one who holds the lease comes back to the head of its cycle. -/
theorem System.CanReach.lead
    (hreach : system.CanReach host worker ⟨⟨.idle, true⟩, store, clock⟩)
    (hleads : Leads worker store) :
    ∃ after, system.CanReach host worker ⟨⟨.claiming, true⟩, after, clock⟩ ∧
      Leads worker after ∧ after.jobs = store.jobs := by
  have hwon := hleads.acquireLock clock
  have hacquiring : system.CanReach host worker
      ⟨⟨.acquiring clock, true⟩, store, clock⟩ := by
    refine hreach.loop .readClock .read (by simp [Action.calm])
      fun final hhere => ?_
    obtain ⟨hworker, _, hclock⟩ := situation_eq hhere
    simp [System.loopMove, hworker, hclock, System.moveTo]
  have hclaiming : system.CanReach host worker
      ⟨⟨.claiming, true⟩, (store.acquireLock worker clock leaseMicros).1,
        clock⟩ := by
    refine hacquiring.loop .acquire (.acquireLock clock) (by simp [Action.calm])
      fun final hhere => ?_
    obtain ⟨hworker, hstore, _⟩ := situation_eq hhere
    simp [System.loopMove, hworker, hstore, hwon, System.moveTo]
  refine ⟨_, hclaiming, ⟨ImportStore.acquireLock_won hwon, ?_⟩,
    ImportStore.jobs_acquireLock _ _ _ _⟩
  intro jobId row hrow
  rw [ImportStore.job?_acquireLock] at hrow
  exact hleads.quiet jobId row hrow

/-- A leader at the head of its cycle runs the oldest job to its end and comes
back for the next. -/
theorem System.CanReach.cycle {row : ImportJobRecord}
    (hreach : system.CanReach host worker
      ⟨⟨.claiming, true⟩, store, clock⟩)
    (hleads : Leads worker store) (hrow : store.job? jobId = some row)
    (hpending : row.status = .pending)
    (holdest : store.oldestPending jobId = true) :
    ∃ after, system.CanReach host worker ⟨⟨.claiming, true⟩, after, clock⟩ ∧
      Leads worker after ∧ Ran worker jobId store after := by
  have hselected : system.CanReach host worker
      ⟨⟨.selected jobId, true⟩, store, clock⟩ := by
    refine hreach.loop (.select jobId) .read (by simp [Action.calm])
      fun final hhere => ?_
    obtain ⟨hworker, hstore, _⟩ := situation_eq hhere
    simp [System.loopMove, hworker, hstore, holdest, System.moveTo]
  have haffected : store.affectedRows (claimSelected jobId worker) = 1 :=
    ImportStore.affectedRows_claimSelected.mpr ⟨row, hrow, hpending⟩
  have hclaimed : system.CanReach host worker
      ⟨⟨.claimed jobId, true⟩, store.execute (claimSelected jobId worker),
        clock⟩ := by
    refine hselected.loop .claim (.job (.claimSelected jobId worker))
      (by simp [Action.calm]) fun final hhere => ?_
    obtain ⟨hworker, hstore, _⟩ := situation_eq hhere
    simp [System.loopMove, hworker, hstore, haffected, System.moveTo]
  obtain ⟨_, _, _, hnow⟩ := claimSelected_row haffected
  obtain ⟨output, failure, himported⟩ := hclaimed.import hnow
  obtain ⟨text, outcome, error, hidle⟩ := himported.finalize
  have hran := ran_finalized worker hrow hpending text outcome error
  obtain ⟨after, hclaiming, hleading, hjobs⟩ :=
    hidle.lead (Ran.leads ⟨store, hleads, hran⟩ hleads.held)
  refine ⟨after, hclaiming, hleading, ?_⟩
  have hsame : after.job? = ((store.execute
      (claimSelected jobId worker)).finalized jobId text outcome
        error).job? := by
    funext other
    rw [ImportStore.job?, hjobs]
    rfl
  exact ⟨hsame ▸ hran.ended, hsame ▸ hran.others⟩

/-- Where a job is PENDING, one of them is the oldest. -/
theorem exists_oldest (hsome : ¬ store.nonePending = true) :
    ∃ jobId row, store.job? jobId = some row ∧ row.status = .pending ∧
      store.oldestPending jobId = true := by
  simp only [ImportStore.nonePending, List.all_eq_true, decide_eq_true_eq,
    not_forall, ne_eq, not_not] at hsome
  obtain ⟨waiting, hmem, hwaits⟩ := hsome
  obtain ⟨row, ⟨hrow, hpending⟩, hleast⟩ :=
    (InvImage.wf ImportJobRecord.createdAt Nat.lt_wfRel.wf).has_min
      (fun row => row ∈ store.jobs.rows ∧ row.status = .pending)
      ⟨waiting, hmem, hwaits⟩
  have hget : store.job? row.id = some row := KeyedTable.get?_of_mem hrow
  refine ⟨row.id, row, hget, hpending, ?_⟩
  simp only [ImportStore.oldestPending, hget, Option.any_some, hpending,
    decide_true, Bool.true_and, List.all_eq_true, decide_eq_true_eq]
  exact fun other hother hwaits =>
    Nat.le_of_not_lt (hleast other ⟨hother, hwaits⟩)

/-- What becomes of a row: one that had ended is kept, an orphan fails, and a
job still waiting is claimed by this worker and ended. -/
structure Drains (worker : WorkerId) (row after : ImportJobRecord) :
    Prop where
  ended : after.status ∈ ImportJobStatus.terminal
  kept : row.status ∈ ImportJobStatus.terminal → after = row
  failed : row.status ∈ ImportJobStatus.active →
    after = (recoverOrphans worker).set row
  claimed : row.status = .pending → after.claimedBy = some worker

/-- A row that is neither PENDING nor active needs nothing. -/
theorem drains_self {row : ImportJobRecord} (hpending : row.status ≠ .pending)
    (hquiet : row.status ∉ ImportJobStatus.active) :
    Drains worker row row where
  ended := by
    rw [ImportJobStatus.mem_terminal_iff]
    simp [ImportJobStatus.abortable, hpending, hquiet]
  kept := fun _ => rfl
  failed := fun hactive => absurd hactive hquiet
  claimed := fun hwaits => absurd hwaits hpending

/-- The whole queue after the run of one job. -/
theorem Ran.drains {row : ImportJobRecord} {before after : ImportStore}
    (hran : Ran worker jobId before store)
    (hrow : before.job? jobId = some row) (hpending : row.status = .pending)
    (hafter : ∀ other, Option.Rel (Drains worker) (store.job? other)
      (after.job? other)) (other : JobId) :
    Option.Rel (Drains worker) (before.job? other) (after.job? other) := by
  have hrest := hafter other
  by_cases hsame : other = jobId
  · subst hsame
    obtain ⟨done, hdone, hended, howner⟩ := hran.ended
    rw [hdone] at hrest
    rw [hrow]
    generalize hlast : after.job? other = last at hrest
    cases hrest with
    | @some _ last hdrains =>
        obtain rfl := hdrains.kept hended
        have hquiet : row.status ∉ ImportJobStatus.active := by
          rw [hpending]
          decide
        refine .some ⟨hended, fun hterminal => ?_,
          fun hactive => absurd hactive hquiet, fun _ => howner⟩
        rw [hpending] at hterminal
        exact absurd hterminal (by decide)
  · rwa [hran.others other hsame] at hrest

/-- A leader empties the queue: the induction is on the jobs that may still be
PENDING. -/
theorem System.CanReach.drain (jobIds : List JobId)
    (hreach : system.CanReach host worker
      ⟨⟨.claiming, true⟩, store, clock⟩)
    (hleads : Leads worker store)
    (hwaiting : ∀ jobId row, store.job? jobId = some row →
      row.status = .pending → jobId ∈ jobIds) :
    ∃ after, system.CanReach host worker ⟨⟨.idle, true⟩, after, clock⟩ ∧
      ∀ jobId, Option.Rel (Drains worker) (store.job? jobId)
        (after.job? jobId) := by
  induction hlength : jobIds.length using Nat.strong_induction_on
    generalizing jobIds store with
  | _ n ih =>
    subst hlength
    by_cases hnone : store.nonePending = true
    · refine ⟨store, hreach.loop .selectNone .read (by simp [Action.calm])
        fun final hhere => ?_, fun jobId => ?_⟩
      · obtain ⟨hworker, hstore, _⟩ := situation_eq hhere
        simp [System.loopMove, hworker, hstore, hnone, System.moveTo]
      · cases hrow : store.job? jobId with
        | none => exact .none
        | some row =>
            simp only [ImportStore.nonePending, List.all_eq_true,
              decide_eq_true_eq] at hnone
            exact .some (drains_self
              (hnone row (KeyedTable.get?_eq_some_iff.mp hrow).1)
              (hleads.quiet jobId row hrow))
    · obtain ⟨jobId, row, hrow, hpending, holdest⟩ := exists_oldest hnone
      obtain ⟨next, hnext, hleading, hran⟩ :=
        hreach.cycle hleads hrow hpending holdest
      have hfewer : (jobIds.filter (· ≠ jobId)).length < jobIds.length :=
        List.length_filter_lt_length_iff_exists.mpr
          ⟨jobId, hwaiting jobId row hrow hpending, by simp⟩
      have hstill : ∀ other waiting, next.job? other = some waiting →
          waiting.status = .pending → other ∈ jobIds.filter (· ≠ jobId) := by
        intro other waiting hother hwaits
        have hne : other ≠ jobId := by
          rintro rfl
          obtain ⟨done, hdone, hended, _⟩ := hran.ended
          obtain rfl := Option.some.inj (hdone.symm.trans hother)
          rw [hwaits] at hended
          exact absurd hended (by decide)
        rw [hran.others other hne] at hother
        simp [hne, hwaiting other waiting hother hwaits]
      obtain ⟨after, hidle, hafter⟩ :=
        ih _ hfewer _ hnext hleading hstill rfl
      exact ⟨after, hidle, hran.drains hrow hpending hafter⟩

end Job

section Restart

variable {host : Host W} {system : System W} {worker : WorkerId}

/-- What a process that has not started yet may rely on: no row is claimed by
it, its flag is down, and a lease that is held runs out some day. -/
structure System.Restartable (system : System W) : Prop where
  unclaimed : ∀ worker, (system.workers worker).phase = .booting →
    ∀ jobId row, system.store.job? jobId = some row →
      row.claimedBy ≠ some worker
  flagless : ∀ worker, (system.workers worker).phase = .booting →
    (system.workers worker).wasLeader = false
  expires : ∀ lock, system.store.lock = some lock →
    lock.holder.isSome = true → lock.leaseExpiresAt.isSome = true

theorem restartable_initial (world : W) :
    (System.initial world).Restartable where
  unclaimed := by
    intro worker _ jobId row hrow
    cases hrow
  flagless := fun _ _ => rfl
  expires := by
    intro lock hlock
    cases hlock

/-- No step starts a process over. -/
theorem booting_before {next : System W} {action : Action W}
    (hstep : system.step host action = some next)
    (hbooting : (next.workers worker).phase = .booting) :
    next.workers worker = system.workers worker := by
  rcases step_workers hstep worker with ⟨_, hsame⟩ | ⟨move, hmove, rfl, hmoved⟩
  · exact hsame
  · rw [hmoved] at hbooting
    have hnever : move.phase ≠ .booting := by
      cases hmove with
      | loop hmoves =>
          unfold System.loopMove at hmoves
          split at hmoves
          all_goals repeat' split at hmoves
          all_goals cases hmoves
          all_goals exact nofun
      | run hphase hmoves =>
          rcases runMove_cases hmoves with
            ⟨next, _, _, hphase, _⟩ | ⟨_, _, hphase, _⟩
          all_goals
            rw [hphase]
            exact nofun
    exact absurd hbooting hnever

/-- A row is claimed by a worker that has selected it. -/
theorem claimedBy_step {next : System W} {action : Action W}
    (hstep : system.step host action = some next)
    (hbooting : (system.workers worker).phase = .booting)
    {jobId : JobId} {row : ImportJobRecord}
    (hrow : next.store.job? jobId = some row)
    (howner : row.claimedBy = some worker) :
    ∃ old, system.store.job? jobId = some old ∧
      old.claimedBy = some worker := by
  rcases step_job? hstep jobId with hsame | ⟨statement, hsends, hset⟩ |
    ⟨settings, _, _, hnew⟩
  · exact ⟨row, hsame.symm.trans hrow, howner⟩
  · obtain ⟨old, hold, rfl⟩ :=
      Option.map_eq_some_iff.mp (hset.symm.trans hrow)
    refine ⟨old, hold, ?_⟩
    cases hclaim : statement.isClaim with
    | false =>
        rwa [StoreProcesses.onRow_claimedBy hclaim] at howner
    | true =>
        cases statement with
        | claimSelected chosen claimer =>
            rcases StoreProcesses.claimSelected_claimedBy
              (ImportStore.job?_id hold) chosen claimer with
              hkept | ⟨_, _, hwon⟩
            · exact hkept.symm.trans howner
            · obtain rfl := Option.some.inj (hwon.symm.trans howner)
              obtain ⟨move, hmove, hstatement⟩ := hsends.claimer
              have hissues := hmove.issues hstatement
              rw [hbooting] at hissues
              cases hissues
        | _ => cases hclaim
  · obtain rfl := Option.some.inj (hnew.symm.trans hrow)
    cases howner

theorem expires_perform {store : ImportStore}
    (hexpires : ∀ lock, store.lock = some lock → lock.holder.isSome = true →
      lock.leaseExpiresAt.isSome = true) (statement : Statement) :
    ∀ lock, (store.perform worker statement).lock = some lock →
      lock.holder.isSome = true → lock.leaseExpiresAt.isSome = true := by
  intro lock hlock hheld
  cases statement with
  | read => exact hexpires lock hlock hheld
  | job statement => exact hexpires lock hlock hheld
  | acquireLock now =>
      simp only [ImportStore.perform, ImportStore.acquireLock] at hlock
      split at hlock
      · exact hexpires lock hlock hheld
      · split at hlock
        · obtain rfl := Option.some.inj hlock
          rfl
        · exact hexpires lock hlock hheld
  | ensureLockRow =>
      simp only [ImportStore.perform, ImportStore.ensureLockRow] at hlock
      cases hbefore : store.lock with
      | none =>
          rw [hbefore] at hlock
          obtain rfl := Option.some.inj hlock
          cases hheld
      | some before =>
          rw [hbefore] at hlock
          obtain rfl := Option.some.inj hlock
          exact hexpires before hbefore hheld

theorem restartable_step {next : System W} {action : Action W}
    (hsystem : system.Restartable)
    (hstep : system.step host action = some next) : next.Restartable where
  unclaimed := by
    intro worker hbooting jobId row hrow howner
    rw [booting_before hstep hbooting] at hbooting
    obtain ⟨old, hold, hclaimed⟩ := claimedBy_step hstep hbooting hrow howner
    exact hsystem.unclaimed worker hbooting jobId old hold hclaimed
  flagless := by
    intro worker hbooting
    have hsame := booting_before hstep hbooting
    rw [hsame] at hbooting ⊢
    exact hsystem.flagless worker hbooting
  expires := by
    intro lock hlock hheld
    rcases step_cases hstep with ⟨worker, move, _, rfl⟩ |
      ⟨_, _, hclient⟩ | ⟨_, _, rfl⟩ | ⟨_, _, rfl⟩
    · exact expires_perform hsystem.expires move.statement lock hlock hheld
    · rw [(clientStep_frame hclient).2.1] at hlock
      exact hsystem.expires lock hlock hheld
    · exact hsystem.expires lock hlock hheld
    · exact hsystem.expires lock hlock hheld

theorem restartable_of_run {world : W} {actions : List (Action W)}
    (hrun : System.runFrom host world actions = some system) :
    system.Restartable :=
  invariant_of_exec (fun _ _ _ hsystem hstep => restartable_step hsystem hstep)
    (restartable_initial world) hrun

/-- A lease that runs out is there for anybody. -/
theorem exists_available {store : ImportStore}
    (hexpires : ∀ lock, store.lock = some lock → lock.holder.isSome = true →
      lock.leaseExpiresAt.isSome = true) (worker : WorkerId) (clock : Nat) :
    ∃ micros, (store.ensureLockRow.acquireLock worker (clock + micros)
      leaseMicros).2 = true := by
  have havailable : ∃ micros, ImportStore.lockAvailable
      (store.lock.getD ⟨none, none⟩) worker (clock + micros) = true := by
    cases hlock : store.lock with
    | none => exact ⟨0, by simp [ImportStore.lockAvailable]⟩
    | some lock =>
        cases hholder : lock.holder with
        | none => exact ⟨0, by simp [ImportStore.lockAvailable, hholder]⟩
        | some holder =>
            obtain ⟨expiry, hexpiry⟩ := Option.isSome_iff_exists.mp
              (hexpires lock hlock (by rw [hholder]; rfl))
            refine ⟨expiry + 1, ?_⟩
            simp only [ImportStore.lockAvailable, Option.getD_some, hexpiry,
              Option.any_some, Bool.or_eq_true, decide_eq_true_eq]
            right
            omega
  obtain ⟨micros, hmicros⟩ := havailable
  exact ⟨micros, by
    simp [ImportStore.acquireLock, ImportStore.ensureLockRow, hmicros]⟩

/-- A process that starts takes the lease over once it has run out, and fails
the orphans. -/
theorem System.Restartable.takeover (hsystem : system.Restartable)
    (host : Host W)
    (haccountable : system.Accountable)
    (hbooting : (system.workers worker).phase = .booting) :
    ∃ store clock, system.CanReach host worker
        ⟨⟨.claiming, true⟩, store, clock⟩ ∧ Leads worker store ∧
      ∀ jobId, store.job? jobId =
        (system.store.job? jobId).map (recoverOrphans worker).onRow := by
  have hflag := hsystem.flagless worker hbooting
  have hstarted := canReach_refl host system worker
  have hbooted : system.CanReach host worker
      ⟨⟨.idle, false⟩, system.store.ensureLockRow, system.clock⟩ := by
    refine hstarted.loop .boot .ensureLockRow (by simp [Action.calm])
      fun final hhere => ?_
    obtain ⟨hworker, _, _⟩ := situation_eq hhere
    simp [System.loopMove, hworker, System.situation, hbooting, hflag,
      System.moveTo]
  obtain ⟨micros, hwon⟩ :=
    exists_available hsystem.expires worker system.clock
  have hacquiring : system.CanReach host worker
      ⟨⟨.acquiring (system.clock + micros), false⟩,
        system.store.ensureLockRow, system.clock + micros⟩ := by
    refine (hbooted.tick micros).loop .readClock .read (by simp [Action.calm])
      fun final hhere => ?_
    obtain ⟨hworker, _, hclock⟩ := situation_eq hhere
    simp [System.loopMove, hworker, hclock, System.moveTo]
  have hrecovering : system.CanReach host worker
      ⟨⟨.recovering, false⟩, (system.store.ensureLockRow.acquireLock worker
        (system.clock + micros) leaseMicros).1, system.clock + micros⟩ := by
    refine hacquiring.loop .acquire (.acquireLock (system.clock + micros))
      (by simp [Action.calm]) fun final hhere => ?_
    obtain ⟨hworker, hstore, _⟩ := situation_eq hhere
    simp [System.loopMove, hworker, hstore, hwon, System.moveTo]
  have hclaiming : system.CanReach host worker
      ⟨⟨.claiming, true⟩, (system.store.ensureLockRow.acquireLock worker
        (system.clock + micros) leaseMicros).1.execute (recoverOrphans worker),
        system.clock + micros⟩ := by
    refine hrecovering.loop .recover (.job (.recoverOrphans worker))
      (by simp [Action.calm]) fun final hhere => ?_
    obtain ⟨hworker, _, _⟩ := situation_eq hhere
    simp [System.loopMove, hworker, System.moveTo]
  have hrows : ∀ jobId, ((system.store.ensureLockRow.acquireLock worker
      (system.clock + micros) leaseMicros).1.execute
      (recoverOrphans worker)).job? jobId =
      (system.store.job? jobId).map (recoverOrphans worker).onRow := by
    intro jobId
    rw [ImportStore.job?_execute, ImportStore.job?_acquireLock]
    rfl
  refine ⟨_, _, hclaiming, ⟨ImportStore.acquireLock_won hwon, ?_⟩, hrows⟩
  intro jobId row hrow hactive
  rw [hrows] at hrow
  obtain ⟨old, hold, rfl⟩ := Option.map_eq_some_iff.mp hrow
  have howner := recoverOrphans_onRow (haccountable.columnsAgree hold) hactive
  have hkept : ((recoverOrphans worker).onRow old).claimedBy = old.claimedBy :=
    @StoreProcesses.onRow_claimedBy (.recoverOrphans worker) rfl old
  exact hsystem.unclaimed worker hbooting jobId old hold
    (hkept.symm.trans howner)

/-- What recovery and then the queue make of a row. -/
theorem drains_recovered {row after : ImportJobRecord}
    (hagree : row.ColumnsAgree) (hother : row.claimedBy ≠ some worker)
    (hdrains : Drains worker ((recoverOrphans worker).onRow row) after) :
    Drains worker row after := by
  by_cases hactive : row.status ∈ ImportJobStatus.active
  · have happlies : (recoverOrphans worker).applies row = true := by
      cases howner : row.claimedBy with
      | none =>
          exact absurd (hagree.unclaimed_iff.mp howner)
            (ImportJobStatus.ne_pending_of_active hactive)
      | some owner =>
          have hne : owner ≠ worker := by
            rintro rfl
            exact hother howner
          simp [recoverOrphans, hactive, howner, hne]
    rw [JobUpdate.onRow, if_pos happlies] at hdrains
    have hfailed : after = (recoverOrphans worker).set row :=
      hdrains.kept (by simp [recoverOrphans, ImportJobStatus.terminal])
    refine ⟨hdrains.ended, fun hended => ?_, fun _ => hfailed,
      fun hpending => ?_⟩
    · exact absurd (List.mem_cons_of_mem _ hactive)
        (ImportJobStatus.mem_terminal_iff.mp hended)
    · exact absurd hpending (ImportJobStatus.ne_pending_of_active hactive)
  · have hspared : ¬ (recoverOrphans worker).applies row = true := by
      simp [recoverOrphans, hactive]
    rwa [JobUpdate.onRow, if_neg hspared] at hdrains

/-- Whatever the processes have left behind, one that starts afresh and meets
no fault can take over and run the queue to its end: every job has then ended,
those that had ended before are untouched, the orphans have failed, and those
that were waiting were run by this process. -/
theorem restart_drains_queue (host : Host W) (world : W)
    (actions : List (Action W)) (system : System W)
    (hrun : System.runFrom host world actions = some system)
    (worker : WorkerId)
    (hbooting : (system.workers worker).phase = .booting) :
    ∃ more final, exec (System.step host) system more = some final ∧
      (∀ action ∈ more, action.calm worker = true) ∧
      (final.workers worker).phase = .idle ∧
      ∀ jobId, Option.Rel (Drains worker) (system.store.job? jobId)
        (final.store.job? jobId) := by
  have haccountable : system.Accountable :=
    invariant_of_exec
      (fun _ _ _ hbefore hstep => accountable_step hbefore hstep)
      (accountable_initial world) hrun
  have hsystem := restartable_of_run hrun
  obtain ⟨store, clock, hclaiming, hleads, hrows⟩ :=
    hsystem.takeover host haccountable hbooting
  obtain ⟨after, ⟨more, final, hexec, hcalm, hfinal⟩, hafter⟩ :=
    hclaiming.drain (store.jobs.rows.map ImportJobRecord.id) hleads
      fun jobId row hrow _ => by
        obtain ⟨hmem, rfl⟩ := KeyedTable.get?_eq_some_iff.mp hrow
        exact List.mem_map_of_mem hmem
  obtain ⟨hworker, hstore, _⟩ := situation_eq hfinal
  refine ⟨more, final, hexec, hcalm, by rw [hworker], fun jobId => ?_⟩
  have hrest := hafter jobId
  rw [hrows] at hrest
  rw [hstore]
  cases hrow : system.store.job? jobId with
  | none =>
      rw [hrow] at hrest
      exact hrest
  | some row =>
      rw [hrow] at hrest
      generalize after.job? jobId = last at hrest ⊢
      cases hrest with
      | some hdrains =>
          exact .some (drains_recovered (haccountable.columnsAgree hrow)
            (hsystem.unclaimed worker hbooting jobId row hrow) hdrains)

/-- Worker 0 dies in the middle of job 7 and job 8 is still waiting. -/
def leftBehind : List (Action Unit) :=
  claimAndStart 0 ++ [.client (.create 8 (.ofPaths [])), .loop 0 .crash]

theorem restart_drains_queue_left_behind :
    ∃ system, System.runFrom plainHost () leftBehind = some system ∧
      ∃ more final, exec (System.step plainHost) system more = some final ∧
      (∀ action ∈ more, action.calm 1 = true) ∧
      (final.workers 1).phase = .idle ∧
      ∀ jobId, Option.Rel (Drains 1) (system.store.job? jobId)
        (final.store.job? jobId) := by
  have hphase : (System.runFrom plainHost () leftBehind).map (fun system =>
      (system.workers 1).phase) = some .booting := by
    decide
  obtain ⟨system, hrun, hbooting⟩ := Option.map_eq_some_iff.mp hphase
  exact ⟨system, hrun, restart_drains_queue plainHost () leftBehind system
    hrun 1 hbooting⟩

end Restart

end Beetkeeper
