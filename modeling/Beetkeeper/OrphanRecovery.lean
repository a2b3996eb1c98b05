/-
Whether a worker that is handed a job has failed the orphans of its
predecessors.  Recovery is gated by a flag of the worker itself, which only an
`acquire_lock` that fails takes down, while the lock row may change hands
unseen; the history of the lease is recorded beside the run and compared with
the flag.
-/
import Mathlib.Data.List.DropRight
import Beetkeeper.AbandonedJobs

namespace Beetkeeper

open Transition

variable {W : Type}

/-- What happened to the lease: `acquire_lock` was won at the start of a cycle
or by a renewal, or the orphans were failed. -/
inductive LeaseEvent where
  | elected (worker : WorkerId)
  | renewed (worker : WorkerId)
  | recovered (worker : WorkerId)
deriving Repr, DecidableEq

def LeaseEvent.acquirer? : LeaseEvent → Option WorkerId
  | .elected worker => some worker
  | .renewed worker => some worker
  | .recovered _ => none

/-- The worker that acquired the lease last. -/
def lastHolder (history : List LeaseEvent) : Option WorkerId :=
  (history.filterMap LeaseEvent.acquirer?).getLast?

/-- The other worker has acquired the lease after the last election of this
one. -/
def AcquiredAfter (history : List LeaseEvent) (worker other : WorkerId) :
    Prop :=
  ∃ event ∈ history.rtakeWhile (fun event => event != .elected worker),
    event.acquirer? = some other

/-- Whenever the worker came to hold the lease that it did not hold before, it
has failed the orphans since. -/
def RecoveredSince (history : List LeaseEvent) (worker : WorkerId) : Prop :=
  ∀ before event after, history = before ++ event :: after →
    event.acquirer? = some worker → lastHolder before ≠ some worker →
    .recovered worker ∈ after

/-- The holder the lock row names. -/
def ImportStore.leaseHolder (store : ImportStore) : Option WorkerId :=
  store.lock.bind ImportLock.holder

/-- The statement a worker's step sends, and the worker. -/
def System.sent? (host : Host W) (system : System W) :
    Action W → Option (WorkerId × Statement)
  | .loop worker action =>
      (system.loopMove worker action).map fun move => (worker, move.statement)
  | .run worker action =>
      match (system.workers worker).phase with
      | .running run =>
          (system.runMove host worker run action).map fun move =>
            (worker, move.statement)
      | _ => none
  | _ => none

/-- How an acquisition by this action enters the history. -/
def Action.acquisition (worker : WorkerId) : Action W → LeaseEvent
  | .run _ _ => .renewed worker
  | _ => .elected worker

def System.leaseEvent? (host : Host W) (system : System W)
    (action : Action W) : Option LeaseEvent :=
  (system.sent? host action).bind fun
    | (worker, .acquireLock now) =>
        if (system.store.acquireLock worker now leaseMicros).2 then
          some (action.acquisition worker)
        else none
    | (worker, .job (.recoverOrphans _)) => some (.recovered worker)
    | _ => none

def noteLease (host : Host W) (system : System W) (action : Action W)
    (history : List LeaseEvent) : List LeaseEvent :=
  history ++ (system.leaseEvent? host action).toList

/-- The system beside the history of its lease. -/
def leaseStep (host : Host W) :
    System W × List LeaseEvent → Action W →
      Option (System W × List LeaseEvent) :=
  recording (System.step host) (noteLease host)

/-- Every run of the system has its lease history. -/
theorem runFrom_iff_leaseStep {host : Host W} {world : W}
    {actions : List (Action W)} {system : System W} :
    System.runFrom host world actions = some system ↔
      ∃ history, exec (leaseStep host) (System.initial world, []) actions =
        some (system, history) :=
  exec_recording_iff.symm

/-- A worker whose flag is up acquires the lease only from itself. -/
def System.reacquiresOwn (host : Host W) (system : System W)
    (action : Action W) : Prop :=
  ∀ event ∈ system.leaseEvent? host action, ∀ worker ∈ event.acquirer?,
    (system.workers worker).wasLeader = true →
    system.store.leaseHolder = some worker

/-- The statement is the claim of this job. -/
def Statement.claims? : Statement → Option JobId
  | .job (.claimSelected jobId _) => some jobId
  | _ => none

/-- The statement is a `set_awaiting` or a `take_decision`. -/
def Statement.reopening? : Statement → Option JobStatement
  | .job statement =>
      if statement.reopens?.isSome then some statement else none
  | _ => none

/-- A job is claimed by the worker the lock row names. -/
def System.claimsAsHolder (host : Host W) (system : System W)
    (action : Action W) : Prop :=
  ∀ sent ∈ system.sent? host action, ∀ jobId ∈ sent.2.claims?,
    system.store.affectedRows (claimSelected jobId sent.1) = 1 →
    system.store.leaseHolder = some sent.1

/-- No decision is requested or taken for a job that has ended. -/
def System.reopensActive (host : Host W) (system : System W)
    (action : Action W) : Prop :=
  ∀ sent ∈ system.sent? host action, ∀ statement ∈ sent.2.reopening?,
    ∀ jobId ∈ statement.reopens?, ∀ row ∈ system.store.job? jobId,
    statement.update.applies row = true → row.status ∈ ImportJobStatus.active

/-- The lease never passes through other hands unnoticed: the flag is up only
while the lock row names the worker at each of its acquisitions, jobs are
claimed under the lease, and no ended job is taken up again. -/
structure LeadsSoundly (host : Host W)
    (state : System W × List LeaseEvent) (action : Action W) : Prop where
  own : state.1.reacquiresOwn host action
  claim : state.1.claimsAsHolder host action
  reopen : state.1.reopensActive host action

instance (host : Host W) (state : System W × List LeaseEvent)
    (action : Action W) : Decidable (LeadsSoundly host state action) :=
  have : Decidable (state.1.reacquiresOwn host action) := by
    unfold System.reacquiresOwn
    infer_instance
  have : Decidable (state.1.claimsAsHolder host action) := by
    unfold System.claimsAsHolder
    infer_instance
  have : Decidable (state.1.reopensActive host action) := by
    unfold System.reopensActive
    infer_instance
  decidable_of_iff (state.1.reacquiresOwn host action ∧
      state.1.claimsAsHolder host action ∧ state.1.reopensActive host action)
    ⟨fun ⟨hown, hclaim, hreopen⟩ => ⟨hown, hclaim, hreopen⟩,
      fun hall => ⟨hall.own, hall.claim, hall.reopen⟩⟩

/-- Whenever a worker is handed a job, it has failed the orphans of every
other holder of the lease, and an active job of another worker is one whose
worker acquired the lease after this worker's `acquire_lock`. -/
def RecoveredBeforeClaiming (state : System W × List LeaseEvent) : Prop :=
  ∀ worker jobId, (state.1.workers worker).phase = .claimed jobId →
    RecoveredSince state.2 worker ∧
    ∀ orphanId row other, state.1.store.job? orphanId = some row →
      row.status ∈ ImportJobStatus.active → row.claimedBy = some other →
      other ≠ worker → AcquiredAfter state.2 worker other

/-- Where the loop stands after orphan recovery, or after skipping it. -/
def Phase.pastRecovery : Phase → Bool
  | .booting => false
  | .idle => false
  | .acquiring _ => false
  | .recovering => false
  | .dead => false
  | _ => true

section History

theorem lastHolder_concat (history : List LeaseEvent) (event : LeaseEvent) :
    lastHolder (history ++ [event]) =
      event.acquirer?.or (lastHolder history) := by
  cases hacquirer : event.acquirer? with
  | none => simp [lastHolder, List.filterMap_append, hacquirer]
  | some worker => simp [lastHolder, List.filterMap_append, hacquirer]

/-- The workers that acquired the lease after the last acquisition of this
one. -/
def heldSince (history : List LeaseEvent) (worker : WorkerId) :
    List LeaseEvent :=
  history.rtakeWhile fun event => event.acquirer? != some worker

/-- Whoever acquired the lease last has done so after every other worker. -/
theorem held_of_lastHolder {history : List LeaseEvent}
    {worker other : WorkerId} (hlast : lastHolder history = some other)
    (hne : other ≠ worker) :
    ∃ event ∈ heldSince history worker, event.acquirer? = some other := by
  induction history using List.reverseRecOn with
  | nil => cases hlast
  | append_singleton history event ih =>
      rw [lastHolder_concat] at hlast
      have hother : event.acquirer? ≠ some worker := by
        intro hown
        rw [hown, Option.some_or] at hlast
        exact hne (Option.some.inj hlast).symm
      rw [heldSince, List.rtakeWhile_concat_pos _ _ _ (by simpa using hother)]
      by_cases hacquired : event.acquirer? = some other
      · exact ⟨event, by simp, hacquired⟩
      · cases hevent : event.acquirer? with
        | some acquirer =>
            rw [hevent, Option.some_or] at hlast
            exact absurd (hevent.trans hlast) hacquired
        | none =>
            rw [hevent, Option.none_or] at hlast
            obtain ⟨earlier, hearlier, hholds⟩ := ih hlast
            exact ⟨earlier, List.mem_append_left _ hearlier, hholds⟩

/-- Nobody acquired the lease after the worker that acquired it last. -/
theorem not_held_of_lastHolder {history : List LeaseEvent}
    {worker : WorkerId} (hlast : lastHolder history = some worker)
    {event : LeaseEvent} (hevent : event ∈ heldSince history worker) :
    event.acquirer? = none := by
  induction history using List.reverseRecOn with
  | nil => cases hlast
  | append_singleton history last ih =>
      rw [lastHolder_concat] at hlast
      cases hacquirer : last.acquirer? with
      | some acquirer =>
          rw [hacquirer, Option.some_or] at hlast
          rw [heldSince, List.rtakeWhile_concat_neg _ _ _
            (by simp [hacquirer, hlast])] at hevent
          cases hevent
      | none =>
          rw [hacquirer, Option.none_or] at hlast
          rw [heldSince, List.rtakeWhile_concat_pos _ _ _
            (by simp [hacquirer]), List.mem_append,
            List.mem_singleton] at hevent
          rcases hevent with hearlier | rfl
          · exact ih hlast hearlier
          · exact hacquirer

/-- An election is an acquisition, so what came after the last acquisition
came after the last election. -/
theorem acquiredAfter_of_held {history : List LeaseEvent}
    {worker other : WorkerId}
    (hheld : ∃ event ∈ heldSince history worker,
      event.acquirer? = some other) : AcquiredAfter history worker other := by
  obtain ⟨event, hevent, hacquirer⟩ := hheld
  refine ⟨event, ?_, hacquirer⟩
  induction history using List.reverseRecOn with
  | nil => exact hevent
  | append_singleton history last ih =>
      by_cases hown : last.acquirer? = some worker
      · rw [heldSince, List.rtakeWhile_concat_neg _ _ _
          (by simp [hown])] at hevent
        cases hevent
      · have helected : last ≠ .elected worker := by
          rintro rfl
          exact hown rfl
        rw [heldSince, List.rtakeWhile_concat_pos _ _ _
          (by simpa using hown)] at hevent
        rw [List.rtakeWhile_concat_pos _ _ _ (by simpa using helected)]
        rcases List.mem_append.mp hevent with hearlier | hlast
        · exact List.mem_append_left _ (ih hearlier)
        · exact List.mem_append_right _ hlast

/-- An event of another worker, or one that is no acquisition, keeps what
came after a worker's last acquisition. -/
theorem heldSince_concat {history : List LeaseEvent} {worker : WorkerId}
    {event : LeaseEvent} (hother : event.acquirer? ≠ some worker) :
    heldSince (history ++ [event]) worker =
      heldSince history worker ++ [event] :=
  List.rtakeWhile_concat_pos _ _ _ (by simpa using hother)

/-- Where the last event of a history may stand when it is split at an
event. -/
theorem concat_eq_append_cons {history before after : List LeaseEvent}
    {last event : LeaseEvent}
    (hsplit : history ++ [last] = before ++ event :: after) :
    (after = [] ∧ history = before ∧ last = event) ∨
    ∃ earlier, after = earlier ++ [last] ∧
      history = before ++ event :: earlier := by
  rcases List.eq_nil_or_concat' after with rfl | ⟨earlier, final, rfl⟩
  · obtain ⟨hbefore, hlast⟩ := List.append_inj' hsplit rfl
    exact Or.inl ⟨rfl, hbefore, List.singleton_inj.mp hlast⟩
  · rw [← List.cons_append, ← List.append_assoc] at hsplit
    obtain ⟨hbefore, hlast⟩ := List.append_inj' hsplit rfl
    exact Or.inr ⟨earlier, by rw [hlast], hbefore⟩

/-- A longer history asks for recovery once more only where the worker
acquires the lease from somebody else. -/
theorem recoveredSince_concat {history : List LeaseEvent} {worker : WorkerId}
    {event : LeaseEvent} (hsince : RecoveredSince history worker)
    (hfrom : event.acquirer? = some worker →
      lastHolder history = some worker) :
    RecoveredSince (history ++ [event]) worker := by
  intro before own after hsplit hown hbefore
  rcases concat_eq_append_cons hsplit with ⟨_, rfl, rfl⟩ |
    ⟨earlier, rfl, hhistory⟩
  · exact absurd (hfrom hown) hbefore
  · exact List.mem_append_left _
      (hsince before own earlier hhistory hown hbefore)

/-- Recovery meets every demand for it. -/
theorem recoveredSince_recovered (history : List LeaseEvent)
    (worker : WorkerId) :
    RecoveredSince (history ++ [.recovered worker]) worker := by
  intro before own after hsplit hown _
  rcases concat_eq_append_cons hsplit with ⟨_, _, rfl⟩ | ⟨earlier, rfl, _⟩
  · cases hown
  · exact List.mem_append_right _ List.mem_cons_self

end History

theorem loopMove_pastRecovery {system : System W} {worker : WorkerId}
    {action : LoopAction} {move : Move W}
    (hmove : system.loopMove worker action = some move)
    (hpast : move.phase.pastRecovery = true) :
    move.wasLeader = true ∨
      (move.wasLeader = (system.workers worker).wasLeader ∧
        (system.workers worker).phase.pastRecovery = true) := by
  unfold System.loopMove at hmove
  split at hmove <;> rename_i hphase <;> try rw [hphase]
  all_goals repeat' split at hmove
  all_goals cases hmove
  all_goals first
    | exact Or.inr ⟨rfl, rfl⟩
    | exact Or.inl rfl
    | skip
  all_goals simp_all [System.moveTo, Phase.pastRecovery]

theorem loopMove_wasLeader {system : System W} {worker : WorkerId}
    {action : LoopAction} {move : Move W}
    (hmove : system.loopMove worker action = some move)
    (hflag : move.wasLeader = true) :
    (system.workers worker).wasLeader = true ∨
      move.statement = .job (.recoverOrphans worker) := by
  unfold System.loopMove at hmove
  split at hmove
  all_goals repeat' split at hmove
  all_goals cases hmove
  all_goals first
    | exact Or.inl hflag
    | exact Or.inr rfl
    | cases hflag

/-- A running job does not touch the flag. -/
theorem runMove_wasLeader {host : Host W} {system : System W}
    {worker : WorkerId} {run : RunState} {action : RunAction} {move : Move W}
    (hmove : system.runMove host worker run action = some move) :
    move.wasLeader = (system.workers worker).wasLeader := by
  unfold System.runMove at hmove
  split at hmove
  all_goals repeat' split at hmove
  all_goals cases hmove
  all_goals rfl

section

variable {host : Host W} {system : System W} {worker : WorkerId}
  {action : Action W} {move : Move W}

theorem WorkerMove.pastRecovery
    (hmove : WorkerMove host system worker action move)
    (hflagged : (system.workers worker).phase.pastRecovery = true →
      (system.workers worker).wasLeader = true)
    (hpast : move.phase.pastRecovery = true) : move.wasLeader = true := by
  cases hmove with
  | loop hmove =>
      rcases loopMove_pastRecovery hmove hpast with hflag | ⟨hsame, hbefore⟩
      · exact hflag
      · exact hsame.trans (hflagged hbefore)
  | run hphase hmove =>
      rw [runMove_wasLeader hmove]
      exact hflagged (hphase ▸ rfl)

theorem WorkerMove.wasLeader
    (hmove : WorkerMove host system worker action move)
    (hflag : move.wasLeader = true) :
    (system.workers worker).wasLeader = true ∨
      move.statement = .job (.recoverOrphans worker) := by
  cases hmove with
  | loop hmove => exact loopMove_wasLeader hmove hflag
  | run hphase hmove =>
      exact Or.inl ((runMove_wasLeader hmove).symm.trans hflag)

theorem WorkerMove.sent (hmove : WorkerMove host system worker action move) :
    system.sent? host action = some (worker, move.statement) := by
  cases hmove with
  | loop hmove => simp [System.sent?, hmove]
  | run hphase hmove => simp [System.sent?, hphase, hmove]

/-- The lock row names whoever acquired the lease by this step, or else the
holder it named before. -/
theorem leaseHolder_step {next : System W}
    (hstep : system.step host action = some next) :
    next.store.leaseHolder =
      ((system.leaseEvent? host action).bind LeaseEvent.acquirer?).or
        system.store.leaseHolder := by
  rcases step_cases hstep with ⟨worker, move, hmove, rfl⟩ |
    ⟨request, rfl, hclient⟩ | ⟨_, rfl, rfl⟩ | ⟨_, rfl, rfl⟩
  · rw [System.leaseEvent?, hmove.sent, Option.bind_some, System.apply]
    generalize move.statement = statement
    cases statement with
    | read => rfl
    | job statement => cases statement <;> rfl
    | ensureLockRow =>
        cases hlock : system.store.lock <;>
          simp [ImportStore.perform, ImportStore.ensureLockRow,
            ImportStore.leaseHolder, hlock]
    | acquireLock now =>
        by_cases hwon : (system.store.acquireLock worker now leaseMicros).2
        · obtain ⟨lock, hlock, hholder⟩ := ImportStore.acquireLock_won hwon
          have hevent : (action.acquisition worker).acquirer? =
              some worker := by
            cases action <;> rfl
          simp [ImportStore.perform, ImportStore.leaseHolder, hlock, hholder,
            hwon, hevent]
        · simp [ImportStore.perform, ImportStore.leaseHolder,
            ImportStore.acquireLock_lost hwon, hwon]
  · rw [ImportStore.leaseHolder, (clientStep_frame hclient).2.1]
    rfl
  · rfl
  · rfl

end

/-- What ties the flags to the history of the lock row. -/
structure LeaseKept (state : System W × List LeaseEvent) : Prop where
  accountable : state.1.Accountable
  holder : state.1.store.leaseHolder = lastHolder state.2
  flagged : ∀ worker, (state.1.workers worker).phase.pastRecovery = true →
    (state.1.workers worker).wasLeader = true
  orphans : ∀ worker, (state.1.workers worker).wasLeader = true →
    ∀ jobId row other, state.1.store.job? jobId = some row →
      row.status ∈ ImportJobStatus.active → row.claimedBy = some other →
      other ≠ worker →
      ∃ event ∈ heldSince state.2 worker, event.acquirer? = some other
  recovered : ∀ worker, (state.1.workers worker).wasLeader = true →
    RecoveredSince state.2 worker

theorem leaseKept_initial (world : W) :
    LeaseKept (System.initial world, []) where
  accountable := accountable_initial world
  holder := rfl
  flagged := by
    intro worker hpast
    cases hpast
  orphans := by
    intro worker hflag
    cases hflag
  recovered := by
    intro worker hflag
    cases hflag

section

variable {host : Host W} {state next : System W × List LeaseEvent}
  {action : Action W}

theorem holder_step (hstate : LeaseKept state)
    (hstep : leaseStep host state action = some next) :
    next.1.store.leaseHolder = lastHolder next.2 := by
  obtain ⟨hsystem, hhistory⟩ := recording_eq_some.mp hstep
  rw [leaseHolder_step hsystem, hhistory, noteLease, hstate.holder]
  cases state.1.leaseEvent? host action with
  | none => simp
  | some event =>
      rw [Option.toList_some, lastHolder_concat, Option.bind_some]

theorem flagged_step (hstate : LeaseKept state)
    (hstep : leaseStep host state action = some next) {worker : WorkerId}
    (hpast : (next.1.workers worker).phase.pastRecovery = true) :
    (next.1.workers worker).wasLeader = true := by
  obtain ⟨hsystem, _⟩ := recording_eq_some.mp hstep
  rcases step_workers hsystem worker with
    ⟨_, hsame⟩ | ⟨move, hmove, _, hmoved⟩
  · rw [hsame] at hpast ⊢
    exact hstate.flagged worker hpast
  · rw [hmoved] at hpast ⊢
    exact hmove.pastRecovery (hstate.flagged worker) hpast

/-- The flag is up because it was, or because the worker has just recovered
the orphans. -/
theorem wasLeader_step {system next : System W}
    (hstep : system.step host action = some next) {worker : WorkerId}
    (hflag : (next.workers worker).wasLeader = true) :
    (system.workers worker).wasLeader = true ∨
    ∃ move, WorkerMove host system worker action move ∧
      next = system.apply worker move ∧
      move.statement = .job (.recoverOrphans worker) := by
  rcases step_workers hstep worker with
    ⟨_, hsame⟩ | ⟨move, hmove, hnext, hmoved⟩
  · rw [hsame] at hflag
    exact Or.inl hflag
  · rw [hmoved] at hflag
    exact (hmove.wasLeader hflag).imp_right
      fun hrecovers => ⟨move, hmove, hnext, hrecovers⟩

/-- An active row of another worker was active before, or has just been
claimed under the lease. -/
theorem held_of_active (hstate : LeaseKept state)
    (hok : LeadsSoundly host state action)
    (hstep : leaseStep host state action = some next) {worker : WorkerId}
    (hflag : (state.1.workers worker).wasLeader = true) {jobId : JobId}
    {row : ImportJobRecord} {other : WorkerId}
    (hrow : next.1.store.job? jobId = some row)
    (hactive : row.status ∈ ImportJobStatus.active)
    (howner : row.claimedBy = some other) (hne : other ≠ worker) :
    ∃ event ∈ heldSince state.2 worker, event.acquirer? = some other := by
  obtain ⟨hsystem, _⟩ := recording_eq_some.mp hstep
  rcases active_row_cases hsystem hrow hactive howner with
    ⟨old, hold, hclaimant, hbefore⟩ | ⟨move, hmove, hstatement, hwon⟩
  · refine hstate.orphans worker hflag jobId old other hold ?_ hclaimant hne
    rcases hbefore with hbefore | ⟨statement, hsends, hreopens, happlies⟩
    · exact hbefore
    · cases hsends with
      | @worker mover _ move _ hmove hstatement =>
          refine hok.reopen _ hmove.sent statement ?_ jobId hreopens old hold
            happlies
          simp [hstatement, Statement.reopening?, hreopens]
      | post hview => cases hreopens
      | abort => cases hreopens
  · refine held_of_lastHolder ?_ hne
    rw [← hstate.holder]
    exact hok.claim _ hmove.sent jobId (by simp [hstatement,
      Statement.claims?]) hwon

/-- Where a worker with its flag up acquires the lease from itself only, what
others held since is still held since. -/
theorem held_noteLease (hstate : LeaseKept state)
    (hok : LeadsSoundly host state action) {worker other : WorkerId}
    (hflag : (state.1.workers worker).wasLeader = true)
    (hheld : ∃ event ∈ heldSince state.2 worker,
      event.acquirer? = some other) :
    ∃ event ∈ heldSince (noteLease host state.1 action state.2) worker,
      event.acquirer? = some other := by
  obtain ⟨event, hevent, hacquirer⟩ := hheld
  rw [noteLease]
  cases hnoted : state.1.leaseEvent? host action with
  | none => exact ⟨event, by simpa using hevent, hacquirer⟩
  | some noted =>
      rw [Option.toList_some]
      have hforeign : noted.acquirer? ≠ some worker := by
        intro hown
        have hholder := hok.own noted hnoted worker hown hflag
        rw [hstate.holder] at hholder
        rw [not_held_of_lastHolder hholder hevent] at hacquirer
        cases hacquirer
      rw [heldSince_concat hforeign]
      exact ⟨event, List.mem_append_left _ hevent, hacquirer⟩

theorem orphans_step (hstate : LeaseKept state)
    (hok : LeadsSoundly host state action)
    (hstep : leaseStep host state action = some next) {worker : WorkerId}
    (hflag : (next.1.workers worker).wasLeader = true) {jobId : JobId}
    {row : ImportJobRecord} {other : WorkerId}
    (hrow : next.1.store.job? jobId = some row)
    (hactive : row.status ∈ ImportJobStatus.active)
    (howner : row.claimedBy = some other) (hne : other ≠ worker) :
    ∃ event ∈ heldSince next.2 worker, event.acquirer? = some other := by
  obtain ⟨hsystem, hhistory⟩ := recording_eq_some.mp hstep
  rcases wasLeader_step hsystem hflag with hbefore |
    ⟨move, hmove, hnext, hrecovers⟩
  · rw [hhistory]
    exact held_noteLease hstate hok hbefore
      (held_of_active hstate hok hstep hbefore hrow hactive howner hne)
  · -- recovery has left no active row to anybody else
    rw [hnext, apply_job?_statement hrecovers] at hrow
    obtain ⟨old, hold, rfl⟩ := Option.map_eq_some_iff.mp hrow
    have hown := recoverOrphans_onRow (hstate.accountable.columnsAgree hold)
      hactive
    exact absurd (Option.some.inj (howner.symm.trans hown)) hne

theorem recovered_step (hstate : LeaseKept state)
    (hok : LeadsSoundly host state action)
    (hstep : leaseStep host state action = some next) {worker : WorkerId}
    (hflag : (next.1.workers worker).wasLeader = true) :
    RecoveredSince next.2 worker := by
  obtain ⟨hsystem, hhistory⟩ := recording_eq_some.mp hstep
  rw [hhistory, noteLease]
  rcases wasLeader_step hsystem hflag with hbefore |
    ⟨move, hmove, hnext, hrecovers⟩
  · have hsince := hstate.recovered worker hbefore
    cases hnoted : state.1.leaseEvent? host action with
    | none => simpa using hsince
    | some noted =>
        refine recoveredSince_concat hsince fun hown => ?_
        rw [← hstate.holder]
        exact hok.own noted hnoted worker hown hbefore
  · rw [System.leaseEvent?, hmove.sent, hrecovers]
    exact recoveredSince_recovered state.2 worker

theorem leaseKept_step (hstate : LeaseKept state)
    (hok : LeadsSoundly host state action)
    (hstep : leaseStep host state action = some next) : LeaseKept next where
  accountable :=
    accountable_step hstate.accountable (recording_eq_some.mp hstep).1
  holder := holder_step hstate hstep
  flagged := fun _ hpast => flagged_step hstate hstep hpast
  orphans := fun _ hflag _ _ _ hrow hactive howner hne =>
    orphans_step hstate hok hstep hflag hrow hactive howner hne
  recovered := fun _ hflag => recovered_step hstate hok hstep hflag

end

/-- In every run whose steps are sound, a worker that is handed a job has
failed the orphans of its predecessors. -/
theorem orphans_are_failed_before_claiming (host : Host W) (world : W)
    (actions : List (Action W))
    (hadmitted : Admitted (leaseStep host) (LeadsSoundly host)
      (System.initial world, []) actions)
    (state : System W × List LeaseEvent)
    (hrun : exec (leaseStep host) (System.initial world, []) actions =
      some state) : RecoveredBeforeClaiming state := by
  have hkept : LeaseKept state :=
    invariant_of_admitted
      (fun _ _ _ hbefore hok hstep => leaseKept_step hbefore hok hstep)
      (leaseKept_initial world) hadmitted hrun
  intro worker jobId hclaimed
  have hflag := hkept.flagged worker (hclaimed ▸ rfl)
  refine ⟨hkept.recovered worker hflag, ?_⟩
  intro orphanId row other hrow hactive howner hne
  exact acquiredAfter_of_held
    (hkept.orphans worker hflag orphanId row other hrow hactive howner hne)

/-- Worker 0 leads and finds nothing to do; worker 1 takes the expired lease,
claims job 7 and crashes; worker 0 takes the lease back with its flag up. -/
def regained : List (Action Unit) :=
  [.loop 0 .boot, .loop 0 .readClock, .loop 0 .acquire, .loop 0 .recover,
    .loop 0 .selectNone, .client (.create 7 (.ofPaths [])),
    .tick (leaseMicros + 1), .loop 1 .boot, .loop 1 .readClock,
    .loop 1 .acquire, .loop 1 .recover, .loop 1 (.select 7), .loop 1 .claim,
    .loop 1 .crash, .client (.create 8 (.ofPaths [])),
    .tick (leaseMicros + 1), .loop 0 .readClock, .loop 0 .acquire,
    .loop 0 (.select 8), .loop 0 .claim]

theorem regained_lease_skips_recovery :
    ∃ state, exec (leaseStep plainHost) (System.initial (), []) regained =
      some state ∧ ¬ RecoveredBeforeClaiming state := by
  have hended : (exec (leaseStep plainHost) (System.initial (), [])
      regained).map (fun state => ((state.1.workers 0).phase, state.2,
        (state.1.store.job? 7).map fun row => (row.status, row.claimedBy))) =
      some (.claimed 8, [.elected 0, .recovered 0, .elected 1, .recovered 1,
        .elected 0], some (.running, some 1)) := by
    decide
  obtain ⟨state, hrun, hview⟩ := Option.map_eq_some_iff.mp hended
  obtain ⟨hclaimed, hview⟩ := Prod.mk.inj hview
  obtain ⟨hhistory, hjob⟩ := Prod.mk.inj hview
  obtain ⟨row, hrow, hcolumns⟩ := Option.map_eq_some_iff.mp hjob
  obtain ⟨hstatus, howner⟩ := Prod.mk.inj hcolumns
  refine ⟨state, hrun, fun hrecovered => ?_⟩
  obtain ⟨event, hevent, _⟩ := (hrecovered 0 8 hclaimed).2 7 row 1 hrow
    (by rw [hstatus]; decide) howner (by decide)
  -- nothing has happened to the lease since worker 0 acquired it
  rw [hhistory] at hevent
  exact absurd hevent (by simp [List.rtakeWhile])

/-- Worker 0 claims job 7 and crashes; worker 1 takes the expired lease, fails
job 7 and claims job 8. -/
def succeeded : List (Action Unit) :=
  [.loop 0 .boot, .loop 0 .readClock, .loop 0 .acquire, .loop 0 .recover,
    .client (.create 7 (.ofPaths [])), .loop 0 (.select 7), .loop 0 .claim,
    .loop 0 .crash, .tick (leaseMicros + 1), .loop 1 .boot,
    .loop 1 .readClock, .loop 1 .acquire, .loop 1 .recover,
    .client (.create 8 (.ofPaths [])), .loop 1 (.select 8), .loop 1 .claim]

theorem successor_fails_orphans :
    ∃ state, exec (leaseStep plainHost) (System.initial (), []) succeeded =
      some state ∧ (state.1.workers 1).phase = .claimed 8 ∧
      RecoveredBeforeClaiming state := by
  have hended : (exec (leaseStep plainHost) (System.initial (), [])
      succeeded).map (fun state => (state.1.workers 1).phase) =
      some (.claimed 8) := by
    decide
  obtain ⟨state, hrun, hclaimed⟩ := Option.map_eq_some_iff.mp hended
  exact ⟨state, hrun, hclaimed, orphans_are_failed_before_claiming plainHost
    () succeeded (by decide) state hrun⟩

end Beetkeeper
