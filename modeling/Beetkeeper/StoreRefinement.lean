/-
The running system is one way the processes may use the store: every step of a
worker, a client or the clock is at most one of their actions, and the worker
that sets a status, publishes a request or takes an answer has claimed the job.
-/
import Beetkeeper.JobColumns
import Beetkeeper.LeaderLease

namespace Beetkeeper

open Transition

variable {W : Type}

/-- The candidate of a `claim_next` between its two statements. -/
def Phase.selection? : Phase → Option JobId
  | .selected jobId => some jobId
  | _ => none

/-- What a worker's step means for the store: the statement, and the selected
candidate before and after it. -/
inductive StoreMove (system : System W) (worker : WorkerId) :
    Statement → Option JobId → Option JobId → Prop where
  | idle (chosen : Option JobId) : StoreMove system worker .read chosen chosen
  | drop (jobId : JobId) : StoreMove system worker .read (some jobId) none
  | select {jobId : JobId} (holdest : system.store.oldestPending jobId = true) :
      StoreMove system worker .read none (some jobId)
  | claim (jobId : JobId) :
      StoreMove system worker (.job (.claimSelected jobId worker))
        (some jobId) none
  | issue {statement : JobStatement} (hother : statement.isClaim = false) :
      StoreMove system worker (.job statement) none none
  | acquire (now : Nat) : StoreMove system worker (.acquireLock now) none none
  | ensure : StoreMove system worker .ensureLockRow none none

theorem loopMove_store {system : System W} {worker : WorkerId}
    {action : LoopAction} {move : Move W}
    (hmove : system.loopMove worker action = some move) :
    StoreMove system worker move.statement
      (system.workers worker).phase.selection? move.phase.selection? := by
  unfold System.loopMove at hmove
  split at hmove <;> rename_i hphase <;> try rw [hphase]
  all_goals repeat' split at hmove
  all_goals cases hmove
  all_goals first
    | exact .idle none
    | exact .select (by assumption)
    | exact .drop _
    | exact .claim _
    | exact .issue rfl
    | exact .acquire _
    | exact .ensure
    | skip
  -- what is left is a crash, wherever the loop stands
  all_goals
    cases (system.workers worker).phase with
    | selected jobId => exact .drop jobId
    | _ => exact .idle none

theorem runMove_store {host : Host W} {system : System W}
    {worker : WorkerId} {run : RunState} {action : RunAction} {move : Move W}
    (hmove : system.runMove host worker run action = some move) :
    StoreMove system worker move.statement none move.phase.selection? := by
  rcases runMove_cases hmove with
    ⟨next, _, _, hphase, _, _, _, hthread⟩ | ⟨_, _, hphase, hread, _⟩
  · rw [hphase]
    generalize move.statement = statement at hthread
    generalize move.events = events at hthread
    cases hthread with
    | renew => exact .acquire _
    | flush => exact .issue rfl
    | publish => exact .issue rfl
    | take => exact .issue rfl
    | lose => exact .issue rfl
    | _ => exact .idle none
  · rw [hphase, hread]
    exact .idle none

theorem WorkerMove.store {host : Host W} {system : System W}
    {worker : WorkerId} {action : Action W} {move : Move W}
    (hmove : WorkerMove host system worker action move) :
    StoreMove system worker move.statement
      (system.workers worker).phase.selection? move.phase.selection? := by
  cases hmove with
  | loop hmove => exact loopMove_store hmove
  | run hphase hmove =>
      rw [hphase]
      exact runMove_store hmove

/-- A worker that writes a status without a test holds the job. -/
theorem Issues.claimant {worker : WorkerId} {phase : Phase}
    {statement : JobStatement} (hissues : Issues worker phase statement)
    {jobId : JobId} (hwrites : statement.writesStatusOf = some jobId) :
    phase.job? = some jobId := by
  apply hissues.holds
  cases statement with
  | setStatus _ _ _ => exact hwrites
  | setAwaiting _ => exact hwrites
  | takeDecision _ => exact hwrites
  | _ => cases hwrites

/-- The processes as the store sees them. -/
structure Matches (system : System W) (procs : StoreProcesses) : Prop where
  store : procs.store = system.store
  selected : ∀ worker,
    procs.selected worker = (system.workers worker).phase.selection?
  held : ∀ worker jobId, (system.workers worker).phase.job? = some jobId →
    (jobId, worker) ∈ procs.claims

theorem matches_initial (world : W) :
    Matches (System.initial world) StoreProcesses.initial where
  store := rfl
  selected := fun _ => rfl
  held := by
    intro worker jobId hjob
    cases hjob

/-- After a step that changed the store alone. -/
theorem Matches.of_store {system next : System W}
    {procs : StoreProcesses} (hmatches : Matches system procs)
    (hworkers : next.workers = system.workers) :
    Matches next { procs with store := next.store } where
  store := rfl
  selected := by
    rw [hworkers]
    exact hmatches.selected
  held := by
    rw [hworkers]
    exact hmatches.held

/-- The candidates after a worker's step. -/
theorem selection_apply (system : System W) (worker : WorkerId)
    (move : Move W) :
    (fun other => ((system.apply worker move).workers other).phase.selection?)
      = Function.update
        (fun other => (system.workers other).phase.selection?) worker
        move.phase.selection? := by
  funext other
  by_cases hsame : other = worker
  · subst hsame
    simp [System.apply]
  · simp [System.apply, hsame]

/-- After a worker's step: the store and the candidates as the step left
them, and no claim forgotten. -/
theorem Matches.of_apply {host : Host W} {system : System W}
    {worker : WorkerId} {action : Action W} {move : Move W}
    (hmove : WorkerMove host system worker action move)
    {before after : StoreProcesses} (hmatches : Matches system before)
    (hstore : after.store = system.store.perform worker move.statement)
    (hselected : after.selected = Function.update before.selected worker
      move.phase.selection?)
    (hkept : ∀ claim ∈ before.claims, claim ∈ after.claims)
    (hwon : ∀ jobId, move.statement = .job (.claimSelected jobId worker) →
      system.store.affectedRows (claimSelected jobId worker) = 1 →
      (jobId, worker) ∈ after.claims) :
    Matches (system.apply worker move) after where
  store := hstore
  selected := by
    have hbefore : before.selected =
        fun other => (system.workers other).phase.selection? :=
      funext hmatches.selected
    intro other
    rw [hselected, hbefore, ← selection_apply]
  held := by
    intro other jobId hjob
    by_cases hsame : other = worker
    · subst hsame
      simp only [System.apply, Function.update_self] at hjob
      rcases hmove.job? hjob with hbefore | ⟨hstatement, haffected⟩
      · exact hkept _ (hmatches.held other jobId hbefore)
      · exact hwon jobId hstatement haffected
    · simp only [System.apply, Function.update_of_ne hsame] at hjob
      exact hkept _ (hmatches.held other jobId hjob)

/-- The case of a step that claims nothing. -/
theorem Matches.of_unclaimed {host : Host W} {system : System W}
    {worker : WorkerId} {action : Action W} {move : Move W}
    (hmove : WorkerMove host system worker action move)
    {before after : StoreProcesses} (hmatches : Matches system before)
    (hstore : after.store = system.store.perform worker move.statement)
    (hselected : after.selected = Function.update before.selected worker
      move.phase.selection?)
    (hclaims : after.claims = before.claims)
    (hother : ∀ jobId,
      move.statement ≠ .job (.claimSelected jobId worker)) :
    Matches (system.apply worker move) after :=
  hmatches.of_apply hmove hstore hselected (fun _ hclaim => hclaims ▸ hclaim)
    (fun jobId hstatement _ => absurd hstatement (hother jobId))

/-- Nothing changes when nothing was selected and nothing is. -/
theorem Matches.update_selected {system : System W} {procs : StoreProcesses}
    (hmatches : Matches system procs) {worker : WorkerId}
    {chosen : Option JobId}
    (hchosen : (system.workers worker).phase.selection? = chosen) :
    procs.selected = Function.update procs.selected worker chosen := by
  rw [← hchosen, ← hmatches.selected worker, Function.update_eq_self]

/-- No action of the processes, or some they admit, leads to these. -/
def StoreProcesses.Reaches (procs after : StoreProcesses) : Prop :=
  ∃ actions, exec StoreProcesses.step procs actions = some after ∧
    Admitted StoreProcesses.step StoreProcesses.ByClaimant procs actions

theorem StoreProcesses.Reaches.refl (procs : StoreProcesses) :
    procs.Reaches procs :=
  ⟨[], rfl, trivial⟩

theorem StoreProcesses.Reaches.one {procs after : StoreProcesses}
    {action : StoreAction} (hstep : procs.step action = some after)
    (hclaimant : procs.ByClaimant action) : procs.Reaches after :=
  ⟨[action], exec_cons_eq_some.mpr ⟨after, hstep, rfl⟩,
    fun _ _ => ⟨hclaimant, trivial⟩⟩

/-- A worker's step is at most one action of the processes. -/
theorem refines_move {host : Host W} {system : System W}
    {worker : WorkerId} {action : Action W} {move : Move W}
    (hmove : WorkerMove host system worker action move)
    {procs : StoreProcesses} (hmatches : Matches system procs) :
    ∃ after, procs.Reaches after ∧
      Matches (system.apply worker move) after := by
  have hstored := hmatches.store
  have hselected := hmatches.selected worker
  have hmeans := hmove.store
  generalize hstatement : move.statement = statement at hmeans
  generalize hbefore : (system.workers worker).phase.selection? = chosen
    at hmeans
  generalize hafter : move.phase.selection? = next at hmeans
  rw [hbefore] at hselected
  cases hmeans with
  | idle =>
      exact ⟨procs, .refl procs, hmatches.of_unclaimed hmove
        (by rw [hstatement]; exact hstored)
        (by rw [hafter]; exact hmatches.update_selected hbefore) rfl
        (by rw [hstatement]; rintro _ ⟨⟩)⟩
  | drop jobId =>
      have hstep : procs.step (.abandon worker) = some _ := rfl
      exact ⟨_, .one hstep trivial, hmatches.of_unclaimed hmove
        (by rw [hstatement]; exact hstored) (by rw [hafter]) rfl
        (by rw [hstatement]; rintro _ ⟨⟩)⟩
  | @select jobId holdest =>
      have hstep : procs.step (.select worker jobId) = some { procs with
          selected :=
            Function.update procs.selected worker (some jobId) } := by
        rw [StoreProcesses.step, hstored]
        exact if_pos ⟨hselected, holdest⟩
      exact ⟨_, .one hstep trivial, hmatches.of_unclaimed hmove
        (by rw [hstatement]; exact hstored) (by rw [hafter]) rfl
        (by rw [hstatement]; rintro _ ⟨⟩)⟩
  | claim jobId =>
      have hstep : procs.step (.claim worker) = some
          { store := procs.store.execute (claimSelected jobId worker)
            selected := Function.update procs.selected worker none
            claims := procs.claims ++
              (procs.claimNext worker).toList.map
                fun won => (won, worker) } := by
        rw [StoreProcesses.step, hselected, Option.map_some]
      refine ⟨_, .one hstep trivial, hmatches.of_apply hmove ?_ ?_ ?_ ?_⟩
      · rw [hstatement, hstored]
        rfl
      · rw [hafter]
      · exact fun _ hclaim => List.mem_append_left _ hclaim
      · rw [hstatement]
        intro won hwon haffected
        obtain ⟨rfl, _⟩ := JobStatement.claimSelected.inj
          (Statement.job.inj hwon)
        have hclaim : procs.claimNext worker = some jobId := by
          rw [StoreProcesses.claimNext, hselected, hstored,
            Option.filter_some, if_pos (decide_eq_true haffected)]
        simp [hclaim]
  | @issue statement hother =>
      have hstep : procs.step (.issue worker statement) = some { procs with
          store := procs.store.execute statement.update } := by
        rw [StoreProcesses.step, hother]
        rfl
      have hclaimant : procs.ByClaimant (.issue worker statement) :=
        fun jobId hwrites => hmatches.held worker jobId
          ((hmove.issues hstatement).claimant hwrites)
      refine ⟨_, .one hstep hclaimant, hmatches.of_unclaimed hmove
        (by rw [hstatement, hstored]; rfl)
        (by rw [hafter]; exact hmatches.update_selected hbefore) rfl ?_⟩
      rw [hstatement]
      intro jobId hclaim
      rw [Statement.job.inj hclaim] at hother
      cases hother
  | acquire now =>
      have hstep : procs.step (.acquireLock worker now leaseMicros) =
          some _ := rfl
      exact ⟨_, .one hstep trivial, hmatches.of_unclaimed hmove
        (by rw [hstatement, ← hstored]; rfl)
        (by rw [hafter]; exact hmatches.update_selected hbefore) rfl
        (by rw [hstatement]; rintro _ ⟨⟩)⟩
  | ensure =>
      have hstep : procs.step .ensureLockRow = some _ := rfl
      exact ⟨_, .one hstep trivial, hmatches.of_unclaimed hmove
        (by rw [hstatement, ← hstored]; rfl)
        (by rw [hafter]; exact hmatches.update_selected hbefore) rfl
        (by rw [hstatement]; rintro _ ⟨⟩)⟩

/-- A client's request is at most one action of the processes, and no status
is written by it. -/
theorem refines_client {system next : System W} {request : ClientAction}
    (hclient : system.clientStep request = some next)
    {procs : StoreProcesses} (hmatches : Matches system procs) :
    ∃ after, procs.Reaches after ∧ Matches next after := by
  have hworkers := (clientStep_frame hclient).1
  have hstored := hmatches.store
  cases request with
  | create jobId settings =>
      simp only [System.clientStep] at hclient
      split at hclient
      · rename_i store view hcreate
        cases hclient
        have hstep : procs.step (.create jobId system.clock settings) =
            some { procs with store := store } := by
          rw [StoreProcesses.step, hstored, hcreate]
        exact ⟨_, .one hstep trivial, hmatches.of_store hworkers⟩
      · cases hclient
  | view client jobId =>
      obtain ⟨_, _, rfl⟩ := Option.map_eq_some_iff.mp hclient
      exact ⟨procs, .refl procs, ⟨hstored, hmatches.selected,
        hmatches.held⟩⟩
  | post client choice index =>
      obtain ⟨view, _, rfl⟩ := Option.map_eq_some_iff.mp hclient
      have hstep : procs.step (.issue 0 (.submitDecision view.jobId
          ⟨choice, index, view.viewed⟩)) = some _ := rfl
      rw [hstored] at hstep
      exact ⟨_, .one hstep (by rintro _ ⟨⟩), hmatches.of_store hworkers⟩
  | abort jobId =>
      obtain ⟨_, _, rfl⟩ := Option.map_eq_some_iff.mp hclient
      have hstep : procs.step (.issue 0 (.requestAbort jobId)) = some _ := rfl
      rw [hstored] at hstep
      exact ⟨_, .one hstep (by rintro _ ⟨⟩), hmatches.of_store hworkers⟩

/-- The running system is simulated by the processes on the store. -/
theorem system_refines_processes (host : Host W) :
    Simulates (System.step host) StoreProcesses.step
      StoreProcesses.ByClaimant Matches := by
  have hone : ∀ system procs action next, Matches system procs →
      system.step host action = some next →
      ∃ after, procs.Reaches after ∧ Matches next after := by
    intro system procs action next hmatches hstep
    rcases step_cases hstep with ⟨worker, move, hmove, rfl⟩ |
      ⟨request, rfl, hclient⟩ | ⟨_, rfl, rfl⟩ | ⟨_, rfl, rfl⟩
    · exact refines_move hmove hmatches
    · exact refines_client hclient hmatches
    · exact ⟨procs, .refl procs, ⟨hmatches.store, hmatches.selected,
        hmatches.held⟩⟩
    · exact ⟨procs, .refl procs, ⟨hmatches.store, hmatches.selected,
        hmatches.held⟩⟩
  intro system procs action next hmatches hstep
  obtain ⟨after, ⟨actions, hexec, hadmitted⟩, hafter⟩ :=
    hone system procs action next hmatches hstep
  exact ⟨actions, after, hexec, hadmitted, hafter⟩

/-- Every run of the system is a run of the processes in which `set_status`,
`set_awaiting` and `take_decision` come from whoever claimed the job; the other
statements may be anybody's. -/
theorem runFrom_refines {host : Host W} {world : W}
    {actions : List (Action W)} {system : System W}
    (hrun : System.runFrom host world actions = some system) :
    ∃ matching procs,
      exec StoreProcesses.step StoreProcesses.initial matching = some procs ∧
      Admitted StoreProcesses.step StoreProcesses.ByClaimant
        StoreProcesses.initial matching ∧
      Matches system procs :=
  exec_of_simulates (system_refines_processes host) (matches_initial world)
    hrun

theorem overlapping_refines :
    ∃ system, System.runFrom plainHost () overlapping = some system ∧
      ∃ matching procs,
        exec StoreProcesses.step StoreProcesses.initial matching =
          some procs ∧
        Admitted StoreProcesses.step StoreProcesses.ByClaimant
          StoreProcesses.initial matching ∧
        Matches system procs := by
  have hruns : (System.runFrom plainHost () overlapping).isSome = true := by
    decide
  obtain ⟨system, hrun⟩ := Option.isSome_iff_exists.mp hruns
  exact ⟨system, hrun, runFrom_refines hrun⟩

/-- The state is one the processes can be in, as far as the store goes. -/
def System.Accountable (system : System W) : Prop :=
  ∃ procs : StoreProcesses, procs.Consistent ∧ Matches system procs

theorem accountable_initial (world : W) :
    (System.initial world).Accountable :=
  ⟨_, StoreProcesses.consistent_initial, matches_initial world⟩

theorem accountable_step {host : Host W} {system next : System W}
    {action : Action W} (hsystem : system.Accountable)
    (hstep : system.step host action = some next) : next.Accountable := by
  obtain ⟨procs, hprocs, hmatches⟩ := hsystem
  obtain ⟨actions, after, hexec, hadmitted, hafter⟩ :=
    system_refines_processes host system procs action next hmatches hstep
  exact ⟨after, invariant_of_admitted
    (fun _ _ _ hbefore hok hstep =>
      StoreProcesses.consistent_step hbefore hok hstep)
    hprocs hadmitted hexec, hafter⟩

/-- In the running system the columns of every row agree. -/
theorem System.Accountable.columnsAgree {system : System W}
    (hsystem : system.Accountable) {jobId : JobId} {row : ImportJobRecord}
    (hrow : system.store.job? jobId = some row) : row.ColumnsAgree := by
  obtain ⟨procs, hprocs, hmatches⟩ := hsystem
  exact hprocs.rows jobId row (hmatches.store ▸ hrow)

end Beetkeeper
