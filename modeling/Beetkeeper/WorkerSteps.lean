/-
What one step of the system can do, said once.  A worker's step either leaves
its claimed job as it is, gives it up, or claims one; the statement it issues
is determined by where it stands.  Every invariant of the system is derived
from these facts and never from the step function itself.
-/
import Beetkeeper.ImportWorker

namespace Beetkeeper

variable {W : Type}

/-- The steps of a running job: those beside the import thread (narration,
renewal, flush), and the thread's own with the test each one rests on.  The
indices are the thread's next position, the requests published by then, the
statement issued and the events. -/
inductive ThreadStep (system : System W) (run : RunState) :
    RunAction → ImportThread → Nat → Statement → List Event → Prop where
  | aside {action} :
      ThreadStep system run action run.thread run.requests .read []
  | renew {now} (hrenewing : run.renewing = some now) :
      ThreadStep system run .renew run.thread run.requests (.acquireLock now)
        []
  | flush {action text} :
      ThreadStep system run action run.thread run.requests
        (.job (.setOutput run.job.id text)) []
  | start {action} (hthread : run.thread = .starting) :
      ThreadStep system run action .importing run.requests .read []
  | choose {action taskId prompt candidates}
      (hthread : run.thread = .importing)
      (habort : system.store.isAbortRequested run.job.id = false) :
      ThreadStep system run action (.publishing taskId prompt candidates)
        run.requests .read []
  | publish {action taskId prompt candidates}
      (hthread : run.thread = .publishing taskId prompt candidates) :
      ThreadStep system run action .polling (run.requests + 1)
        (.job (.setAwaiting (buildDecisionRequest run.job (run.requests + 1)
          taskId prompt candidates))) []
  | found {action decision} (hthread : run.thread = .polling)
      (hstored : system.store.submittedDecision run.job.id = some decision) :
      ThreadStep system run action (.taking decision) run.requests .read []
  | notFound {action} (hthread : run.thread = .polling) :
      ThreadStep system run action .checking run.requests .read []
  | take {action decision} (hthread : run.thread = .taking decision)
      (haffected : system.store.affectedRows (takeDecision run.job.id) = 1) :
      ThreadStep system run action .importing run.requests
        (.job (.takeDecision run.job.id))
        [.taken run.job.id decision run.requests]
  | lose {action decision} (hthread : run.thread = .taking decision)
      (haffected : system.store.affectedRows (takeDecision run.job.id) ≠ 1) :
      ThreadStep system run action .checking run.requests
        (.job (.takeDecision run.job.id)) []
  | giveUp {action} (hthread : run.thread = .checking)
      (habort : system.store.isAbortRequested run.job.id = true) :
      ThreadStep system run action .importing run.requests .read []
  | again {action} (hthread : run.thread = .checking) :
      ThreadStep system run action .polling run.requests .read []
  | finish {action failure}
      (hthread : run.thread = .starting ∨ run.thread = .importing) :
      ThreadStep system run action (.ended failure) run.requests .read []
  | fault {action failure} :
      ThreadStep system run action (.ended failure) run.requests .read
        [.bridgeFailed run.job.id]

theorem runMove_cases {host : Host W} {system : System W}
    {worker : WorkerId} {run : RunState} {action : RunAction} {move : Move W}
    (hmove : system.runMove host worker run action = some move) :
    (∃ (next : RunState) (thread : ImportThread) (requests : Nat),
      move.phase = .running next ∧ next.job = run.job ∧
      next.thread = thread ∧ next.requests = requests ∧
      ThreadStep system run action thread requests move.statement
        move.events) ∨
    (∃ failure, run.thread = .ended failure ∧
      move.phase = .concluding run.job.id run.output failure ∧
      move.statement = .read ∧ move.events = []) := by
  unfold System.runMove at hmove
  split at hmove
  all_goals repeat' split at hmove
  all_goals cases hmove
  all_goals first
    | exact Or.inr ⟨_, by assumption, rfl, rfl, rfl⟩
    | refine Or.inl ⟨_, _, _, rfl, rfl, rfl, rfl, ?_⟩
  all_goals first
    | exact .aside
    | exact .flush
    | exact .renew (by assumption)
    | exact .start (by assumption)
    | exact .choose (by assumption) (by simp_all)
    | exact .publish (by assumption)
    | exact .found (by assumption) (by assumption)
    | exact .notFound (by assumption)
    | exact .take (by assumption) (by assumption)
    | exact .lose (by assumption) (by assumption)
    | exact .giveUp (by assumption) (by assumption)
    | exact .again (by assumption)
    | exact .finish (Or.inl (by assumption))
    | exact .finish (Or.inr (by assumption))
    | exact .fault

/-- The statements a worker may issue in a phase. -/
inductive Issues (worker : WorkerId) : Phase → JobStatement → Prop where
  | recover : Issues worker .recovering (.recoverOrphans worker)
  | claim (jobId : JobId) :
      Issues worker (.selected jobId) (.claimSelected jobId worker)
  | flush (run : RunState) (text : String) :
      Issues worker (.running run) (.setOutput run.job.id text)
  | publish (run : RunState) (taskId prompt : String)
      (candidates : List ImportCandidate)
      (hthread : run.thread = .publishing taskId prompt candidates) :
      Issues worker (.running run)
        (.setAwaiting (buildDecisionRequest run.job (run.requests + 1)
          taskId prompt candidates))
  | take (run : RunState) (decision : ImportDecision)
      (hthread : run.thread = .taking decision) :
      Issues worker (.running run) (.takeDecision run.job.id)
  | writeOutput (jobId : JobId) (output : OutputBuffer)
      (outcome : JobOutcome) (error : Option String) (attempt : Nat) :
      Issues worker (.finalizing jobId output outcome error attempt false)
        (.setOutput jobId output.text)
  | writeStatus (jobId : JobId) (output : OutputBuffer)
      (outcome : JobOutcome) (error : Option String) (attempt : Nat) :
      Issues worker (.finalizing jobId output outcome error attempt true)
        (.setStatus jobId outcome error)

/-- The action is the worker's `acquire_lock`, with this reading of the
clock. -/
inductive Acquires (system : System W) (worker : WorkerId) (now : Nat) :
    Action W → Prop where
  | elect (hphase : (system.workers worker).phase = .acquiring now) :
      Acquires system worker now (.loop worker .acquire)
  | renew {run : RunState}
      (hphase : (system.workers worker).phase = .running run)
      (hrenewing : run.renewing = some now) :
      Acquires system worker now (.run worker .renew)

/-- A worker's move, whichever of its two levels it belongs to. -/
inductive WorkerMove (host : Host W) (system : System W)
    (worker : WorkerId) : Action W → Move W → Prop where
  | loop {action : LoopAction} {move : Move W}
      (hmove : system.loopMove worker action = some move) :
      WorkerMove host system worker (.loop worker action) move
  | run {action : RunAction} {run : RunState} {move : Move W}
      (hphase : (system.workers worker).phase = .running run)
      (hmove : system.runMove host worker run action = some move) :
      WorkerMove host system worker (.run worker action) move

/-- A step is a worker's move, a client's request, the clock, or something
outside. -/
theorem step_cases {host : Host W} {system next : System W}
    {action : Action W} (hstep : system.step host action = some next) :
    (∃ worker move, WorkerMove host system worker action move ∧
      next = system.apply worker move) ∨
    (∃ request, action = .client request ∧
      system.clientStep request = some next) ∨
    (∃ micros, action = .tick micros ∧
      next = { system with clock := system.clock + micros }) ∨
    (∃ world, action = .outside world ∧
      next = { system with world := world }) := by
  cases action with
  | loop worker action =>
      simp only [System.step, Option.map_eq_some_iff] at hstep
      obtain ⟨move, hmove, rfl⟩ := hstep
      exact Or.inl ⟨worker, move, .loop hmove, rfl⟩
  | run worker action =>
      simp only [System.step] at hstep
      split at hstep
      · rename_i run hphase
        simp only [Option.map_eq_some_iff] at hstep
        obtain ⟨move, hmove, rfl⟩ := hstep
        exact Or.inl ⟨worker, move, .run hphase hmove, rfl⟩
      · cases hstep
  | client request => exact Or.inr (Or.inl ⟨request, rfl, hstep⟩)
  | tick micros =>
      exact Or.inr (Or.inr (Or.inl ⟨micros, rfl,
        (Option.some.inj hstep).symm⟩))
  | outside world =>
      exact Or.inr (Or.inr (Or.inr ⟨world, rfl,
        (Option.some.inj hstep).symm⟩))

theorem loopMove_issues {system : System W} {worker : WorkerId}
    {action : LoopAction} {move : Move W} {statement : JobStatement}
    (hmove : system.loopMove worker action = some move)
    (hstatement : move.statement = .job statement) :
    Issues worker (system.workers worker).phase statement := by
  unfold System.loopMove at hmove
  split at hmove <;> rename_i hphase <;> try rw [hphase]
  all_goals repeat' split at hmove
  all_goals cases hmove
  all_goals cases hstatement
  all_goals constructor

theorem runMove_issues {host : Host W} {system : System W}
    {worker : WorkerId} {run : RunState} {action : RunAction} {move : Move W}
    {statement : JobStatement}
    (hmove : system.runMove host worker run action = some move)
    (hstatement : move.statement = .job statement) :
    Issues worker (.running run) statement := by
  rcases runMove_cases hmove with
    ⟨next, _, _, _, _, _, _, hthread⟩ | ⟨_, _, _, hread, _⟩
  · rw [hstatement] at hthread
    generalize move.events = events at hthread
    cases hthread with
    | flush => exact .flush run _
    | publish hthread => exact .publish run _ _ _ hthread
    | take hthread => exact .take run _ hthread
    | lose hthread => exact .take run _ hthread
  · rw [hread] at hstatement
    cases hstatement

/-- The loop outside a running job touches neither the world nor the
history. -/
theorem loopMove_frame {system : System W} {worker : WorkerId}
    {action : LoopAction} {move : Move W}
    (hmove : system.loopMove worker action = some move) :
    move.world = system.world ∧ move.events = [] := by
  unfold System.loopMove at hmove
  split at hmove
  all_goals repeat' split at hmove
  all_goals cases hmove
  all_goals exact ⟨rfl, rfl⟩

theorem loopMove_job? {system : System W} {worker : WorkerId}
    {action : LoopAction} {move : Move W} {jobId : JobId}
    (hmove : system.loopMove worker action = some move)
    (hjob : move.phase.job? = some jobId) :
    (system.workers worker).phase.job? = some jobId ∨
      (move.statement = .job (.claimSelected jobId worker) ∧
        system.store.affectedRows (claimSelected jobId worker) = 1) := by
  unfold System.loopMove at hmove
  split at hmove <;> rename_i hphase <;> try rw [hphase]
  all_goals repeat' split at hmove
  all_goals cases hmove
  all_goals simp only [System.moveTo, Phase.job?, RunState.initial,
    reduceCtorEq, Option.some.injEq] at hjob ⊢
  all_goals first
    | exact Or.inl hjob
    | (subst hjob; exact Or.inr ⟨rfl, by assumption⟩)
    | skip
  -- what is left is the row `claim_next` reads back
  all_goals
    rename_i hget
    obtain ⟨_, _, _, hid⟩ := ImportStore.get_eq_some hget
    exact Or.inl (hid.symm.trans hjob)

/-- A claim either wins the job or leaves the worker without one. -/
theorem loopMove_claim {system : System W} {worker claimer : WorkerId}
    {action : LoopAction} {move : Move W} {jobId : JobId}
    (hmove : system.loopMove worker action = some move)
    (hstatement : move.statement = .job (.claimSelected jobId claimer)) :
    (system.store.affectedRows (claimSelected jobId worker) = 1 ∧
      move.phase = .claimed jobId) ∨
    (system.store.affectedRows (claimSelected jobId worker) ≠ 1 ∧
      move.phase = .idle) := by
  unfold System.loopMove at hmove
  split at hmove
  all_goals repeat' split at hmove
  all_goals cases hmove
  all_goals cases hstatement
  · exact Or.inl ⟨by assumption, rfl⟩
  · exact Or.inr ⟨by assumption, rfl⟩

theorem loopMove_setStatus {system : System W} {worker : WorkerId}
    {action : LoopAction} {move : Move W} {jobId : JobId}
    {outcome : JobOutcome} {error : Option String}
    (hmove : system.loopMove worker action = some move)
    (hstatement : move.statement = .job (.setStatus jobId outcome error)) :
    move.phase.job? = none := by
  unfold System.loopMove at hmove
  split at hmove
  all_goals repeat' split at hmove
  all_goals cases hmove
  all_goals cases hstatement
  rfl

theorem loopMove_recover {system : System W} {worker recoverer : WorkerId}
    {action : LoopAction} {move : Move W}
    (hmove : system.loopMove worker action = some move)
    (hstatement : move.statement = .job (.recoverOrphans recoverer)) :
    action = .recover ∧ recoverer = worker := by
  unfold System.loopMove at hmove
  split at hmove
  all_goals repeat' split at hmove
  all_goals cases hmove
  all_goals cases hstatement
  exact ⟨rfl, rfl⟩

theorem loopMove_acquireLock {system : System W} {worker : WorkerId}
    {action : LoopAction} {move : Move W} {now : Nat}
    (hmove : system.loopMove worker action = some move)
    (hstatement : move.statement = .acquireLock now) :
    action = .acquire ∧ (system.workers worker).phase = .acquiring now := by
  unfold System.loopMove at hmove
  split at hmove <;> rename_i hphase
  all_goals repeat' split at hmove
  all_goals cases hmove
  all_goals cases hstatement
  all_goals exact ⟨rfl, hphase⟩

/-- A dead worker does nothing. -/
theorem loopMove_alive {system : System W} {worker : WorkerId}
    {action : LoopAction} {move : Move W}
    (hmove : system.loopMove worker action = some move) :
    (system.workers worker).phase ≠ .dead := by
  intro hdead
  simp only [System.loopMove, hdead] at hmove
  cases action <;> cases hmove

/-- A run begins with its session not yet started. -/
theorem loopMove_running {system : System W} {worker : WorkerId}
    {action : LoopAction} {move : Move W} {run : RunState}
    (hmove : system.loopMove worker action = some move)
    (hphase : move.phase = .running run) :
    move.statement = .read ∧ ∃ jobId job, run = .initial job ∧
      (system.workers worker).phase = .claimed jobId ∧
      system.store.get jobId = some job := by
  unfold System.loopMove at hmove
  split at hmove <;> rename_i hbefore
  all_goals repeat' split at hmove
  all_goals cases hmove
  all_goals cases hphase
  exact ⟨rfl, _, _, rfl, hbefore, by assumption⟩

theorem loopMove_leading {system : System W} {worker : WorkerId}
    {action : LoopAction} {move : Move W}
    (hmove : system.loopMove worker action = some move)
    (hleading : move.phase.leading = true) :
    (system.workers worker).phase.leading = true ∨
      ∃ now, move.statement = .acquireLock now ∧
        (system.store.acquireLock worker now leaseMicros).2 = true := by
  unfold System.loopMove at hmove
  split at hmove <;> rename_i hphase <;> try rw [hphase]
  all_goals repeat' split at hmove
  all_goals cases hmove
  all_goals first
    | exact Or.inl rfl
    | exact Or.inr ⟨_, rfl, by assumption⟩
    | cases hleading

namespace WorkerMove

variable {host : Host W} {system : System W} {worker : WorkerId}
  {action : Action W} {move : Move W}

theorem issues (hmove : WorkerMove host system worker action move)
    {statement : JobStatement} (hstatement : move.statement = .job statement) :
    Issues worker (system.workers worker).phase statement := by
  cases hmove with
  | loop hmove => exact loopMove_issues hmove hstatement
  | run hphase hmove =>
      rw [hphase]
      exact runMove_issues hmove hstatement

/-- A worker ends a step with the job it had, with none, or with the one its
claim has just won. -/
theorem job? (hmove : WorkerMove host system worker action move)
    {jobId : JobId} (hjob : move.phase.job? = some jobId) :
    (system.workers worker).phase.job? = some jobId ∨
      (move.statement = .job (.claimSelected jobId worker) ∧
        system.store.affectedRows (claimSelected jobId worker) = 1) := by
  cases hmove with
  | loop hmove => exact loopMove_job? hmove hjob
  | run hphase hmove =>
      rw [hphase]
      rcases runMove_cases hmove with
        ⟨next, _, _, hnext, hsame, _⟩ | ⟨_, _, hnext, _⟩
      · rw [hnext] at hjob
        simp only [Phase.job?, hsame] at hjob ⊢
        exact Or.inl hjob
      · rw [hnext] at hjob
        exact Or.inl hjob

theorem leading (hmove : WorkerMove host system worker action move)
    (hleading : move.phase.leading = true) :
    (system.workers worker).phase.leading = true ∨
      ∃ now, move.statement = .acquireLock now ∧
        (system.store.acquireLock worker now leaseMicros).2 = true := by
  cases hmove with
  | loop hmove => exact loopMove_leading hmove hleading
  | run hphase hmove =>
      rw [hphase]
      exact Or.inl rfl

theorem worker? (hmove : WorkerMove host system worker action move) :
    action.worker? = some worker := by
  cases hmove <;> rfl

theorem alive (hmove : WorkerMove host system worker action move) :
    (system.workers worker).phase ≠ .dead := by
  cases hmove with
  | loop hmove => exact loopMove_alive hmove
  | run hphase hmove => exact hphase ▸ nofun

/-- The claim that wins the job gives it to its worker. -/
theorem claimed (hmove : WorkerMove host system worker action move)
    {jobId : JobId} {claimer : WorkerId}
    (hstatement : move.statement = .job (.claimSelected jobId claimer))
    (hwon : system.store.affectedRows (claimSelected jobId worker) = 1) :
    move.phase = .claimed jobId := by
  cases hmove with
  | loop hmove =>
      rcases loopMove_claim hmove hstatement with ⟨_, hphase⟩ | ⟨hlost, _⟩
      · exact hphase
      · exact absurd hwon hlost
  | run hphase hmove => nomatch runMove_issues hmove hstatement

/-- The step a move is carried out by. -/
theorem step (hmove : WorkerMove host system worker action move) :
    system.step host action = some (system.apply worker move) := by
  cases hmove with
  | loop hmove => simp [System.step, hmove]
  | run hphase hmove => simp [System.step, hphase, hmove]

/-- The terminal write is the worker's last word on a job. -/
theorem setStatus_releases (hmove : WorkerMove host system worker action move)
    {jobId : JobId} {outcome : JobOutcome} {error : Option String}
    (hstatement : move.statement = .job (.setStatus jobId outcome error)) :
    move.phase.job? = none := by
  cases hmove with
  | loop hmove => exact loopMove_setStatus hmove hstatement
  | run hphase hmove => nomatch runMove_issues hmove hstatement

theorem acquires (hmove : WorkerMove host system worker action move)
    {now : Nat} (hstatement : move.statement = .acquireLock now) :
    Acquires system worker now action := by
  cases hmove with
  | loop hmove =>
      obtain ⟨rfl, hphase⟩ := loopMove_acquireLock hmove hstatement
      exact .elect hphase
  | run hphase hmove =>
      rcases runMove_cases hmove with
        ⟨_, _, _, _, _, _, _, hthread⟩ | ⟨_, _, _, hread, _⟩
      · rw [hstatement] at hthread
        generalize move.events = events at hthread
        cases hthread with
        | renew hrenewing => exact .renew hphase hrenewing
      · rw [hread] at hstatement
        cases hstatement

/-- A worker's step is recorded when it consumes a decision, or when the
bridge fails. -/
theorem events (hmove : WorkerMove host system worker action move) :
    move.events = [] ∨
      (∃ run, (system.workers worker).phase = .running run ∧
        move.events = [.bridgeFailed run.job.id]) ∨
      ∃ run decision, (system.workers worker).phase = .running run ∧
        run.thread = .taking decision ∧
        move.statement = .job (.takeDecision run.job.id) ∧
        system.store.affectedRows (takeDecision run.job.id) = 1 ∧
        move.events = [.taken run.job.id decision run.requests] := by
  cases hmove with
  | loop hmove => exact Or.inl (loopMove_frame hmove).2
  | run hphase hmove =>
      rcases runMove_cases hmove with
        ⟨_, _, _, _, _, _, _, hthread⟩ | ⟨_, _, _, _, hevents⟩
      · generalize hstatement : move.statement = statement at hthread
        generalize hevents : move.events = events at hthread
        cases hthread with
        | take hthread haffected =>
            exact Or.inr (Or.inr
              ⟨_, _, hphase, hthread, rfl, haffected, rfl⟩)
        | fault => exact Or.inr (Or.inl ⟨_, hphase, rfl⟩)
        | _ => exact Or.inl rfl
      · exact Or.inl hevents

end WorkerMove

/-- The statements on the job table an action may send. -/
inductive Sends (host : Host W) (system : System W) :
    Action W → JobStatement → Prop where
  | worker {worker : WorkerId} {action : Action W} {move : Move W}
      {statement : JobStatement}
      (hmove : WorkerMove host system worker action move)
      (hstatement : move.statement = .job statement) :
      Sends host system action statement
  | post {client : ClientId} {choice : ImportAction} {index : Option Int}
      {view : ClientView} (hview : system.clients client = some view) :
      Sends host system (.client (.post client choice index))
        (.submitDecision view.jobId ⟨choice, index, view.viewed⟩)
  | abort {jobId : JobId} :
      Sends host system (.client (.abort jobId)) (.requestAbort jobId)

/-- Orphan recovery is a step of its own. -/
theorem Sends.recover {host : Host W} {system : System W} {action : Action W}
    {worker : WorkerId}
    (hsends : Sends host system action (.recoverOrphans worker)) :
    action = .loop worker .recover := by
  cases hsends with
  | worker hmove hstatement =>
      cases hmove with
      | loop hmove =>
          obtain ⟨rfl, rfl⟩ := loopMove_recover hmove hstatement
          rfl
      | run hphase hmove => nomatch runMove_issues hmove hstatement

/-- Answers come from clients, each for the request its client has seen. -/
theorem Sends.posted {host : Host W} {system : System W} {action : Action W}
    {jobId : JobId} {decision : ImportDecision}
    (hsends : Sends host system action (.submitDecision jobId decision)) :
    ∃ client view, action = .client (.post client decision.action
        decision.candidateIndex) ∧
      system.clients client = some view ∧ view.jobId = jobId ∧
      view.viewed = decision.viewed := by
  cases hsends with
  | worker hmove hstatement =>
      have hissues := hmove.issues hstatement
      generalize (system.workers _).phase = phase at hissues
      cases hissues
  | post hview => exact ⟨_, _, rfl, hview, rfl, rfl⟩

/-- What a worker's statement does to one row. -/
def Statement.onRow : Statement → ImportJobRecord → ImportJobRecord
  | .job statement, row => statement.update.onRow row
  | _, row => row

theorem apply_job? (system : System W) (worker : WorkerId) (move : Move W)
    (jobId : JobId) :
    (system.apply worker move).store.job? jobId =
      (system.store.job? jobId).map move.statement.onRow := by
  simp only [System.apply]
  cases move.statement with
  | job statement => exact ImportStore.job?_execute _ _ _
  | read => exact Option.map_id'.symm
  | acquireLock now =>
      exact (ImportStore.job?_acquireLock _ _ _ _ _).trans Option.map_id'.symm
  | ensureLockRow => exact Option.map_id'.symm

theorem apply_job?_statement {system : System W} {worker : WorkerId}
    {move : Move W} {statement : JobStatement}
    (hstatement : move.statement = .job statement) (jobId : JobId) :
    (system.apply worker move).store.job? jobId =
      (system.store.job? jobId).map statement.update.onRow := by
  simp only [System.apply, hstatement]
  exact ImportStore.job?_execute _ _ _

theorem apply_job?_other {system : System W} {worker : WorkerId}
    {move : Move W} (hother : ∀ statement, move.statement ≠ .job statement)
    (jobId : JobId) :
    (system.apply worker move).store.job? jobId =
      system.store.job? jobId := by
  cases hstatement : move.statement with
  | job statement => exact absurd hstatement (hother statement)
  | read => simp [System.apply, hstatement, ImportStore.perform]
  | acquireLock now => simp [System.apply, hstatement, ImportStore.perform]
  | ensureLockRow =>
      simp [System.apply, hstatement, ImportStore.perform,
        ImportStore.ensureLockRow, ImportStore.job?]

/-- What a step does to one row: nothing, one statement, or its creation. -/
theorem step_job? {host : Host W} {system next : System W} {action : Action W}
    (hstep : system.step host action = some next) (jobId : JobId) :
    next.store.job? jobId = system.store.job? jobId ∨
    (∃ statement, Sends host system action statement ∧
      next.store.job? jobId =
        (system.store.job? jobId).map statement.update.onRow) ∨
    (∃ settings, action = .client (.create jobId settings) ∧
      system.store.job? jobId = none ∧
      next.store.job? jobId = some (settings.newRecord jobId system.clock)) := by
  rcases step_cases hstep with ⟨worker, move, hmove, rfl⟩ |
    ⟨request, rfl, hclient⟩ | ⟨_, rfl, rfl⟩ | ⟨_, rfl, rfl⟩
  · by_cases hwrites : ∃ statement, move.statement = .job statement
    · obtain ⟨statement, hstatement⟩ := hwrites
      exact Or.inr (Or.inl ⟨statement, .worker hmove hstatement,
        apply_job?_statement hstatement jobId⟩)
    · exact Or.inl (apply_job?_other (not_exists.mp hwrites) jobId)
  · cases request with
    | create created settings =>
        simp only [System.clientStep] at hclient
        split at hclient
        · rename_i store view hcreate
          cases hclient
          have hrow := ImportStore.job?_create hcreate jobId
          by_cases hsame : created = jobId
          · subst hsame
            rw [if_pos rfl] at hrow
            exact Or.inr (Or.inr ⟨settings, rfl,
              ImportStore.create_fresh hcreate, hrow⟩)
          · rw [if_neg hsame] at hrow
            exact Or.inl hrow
        · cases hclient
    | view client viewed =>
        obtain ⟨_, _, rfl⟩ := Option.map_eq_some_iff.mp hclient
        exact Or.inl rfl
    | post client choice index =>
        obtain ⟨view, hview, rfl⟩ := Option.map_eq_some_iff.mp hclient
        exact Or.inr (Or.inl ⟨_, .post hview,
          ImportStore.job?_execute _ _ _⟩)
    | abort aborted =>
        obtain ⟨_, _, rfl⟩ := Option.map_eq_some_iff.mp hclient
        exact Or.inr (Or.inl ⟨_, .abort, ImportStore.job?_execute _ _ _⟩)
  · exact Or.inl rfl
  · exact Or.inl rfl

/-- No step deletes a row. -/
theorem job?_kept {host : Host W} {system next : System W} {action : Action W}
    (hstep : system.step host action = some next) {jobId : JobId}
    {row : ImportJobRecord} (hrow : system.store.job? jobId = some row) :
    ∃ kept, next.store.job? jobId = some kept := by
  rcases step_job? hstep jobId with hsame | ⟨statement, _, hset⟩ |
    ⟨_, _, hnone, _⟩
  · exact ⟨row, hsame.trans hrow⟩
  · rw [hrow] at hset
    exact ⟨_, hset⟩
  · rw [hrow] at hnone
    cases hnone

/-- A client's request leaves the workers, the lock and the world alone. -/
theorem clientStep_frame {system next : System W} {request : ClientAction}
    (hclient : system.clientStep request = some next) :
    next.workers = system.workers ∧ next.store.lock = system.store.lock ∧
      next.world = system.world := by
  cases request with
  | create created settings =>
      simp only [System.clientStep] at hclient
      split at hclient
      · rename_i store view hcreate
        cases hclient
        exact ⟨rfl, (ImportStore.create_eq_ok hcreate).2, rfl⟩
      · cases hclient
  | view client viewed =>
      obtain ⟨_, _, rfl⟩ := Option.map_eq_some_iff.mp hclient
      exact ⟨rfl, rfl, rfl⟩
  | post client choice index =>
      obtain ⟨view, hview, rfl⟩ := Option.map_eq_some_iff.mp hclient
      exact ⟨rfl, rfl, rfl⟩
  | abort aborted =>
      obtain ⟨_, _, rfl⟩ := Option.map_eq_some_iff.mp hclient
      exact ⟨rfl, rfl, rfl⟩

/-- A client's request is recorded when the store accepts it. -/
theorem clientStep_log {system next : System W} {request : ClientAction}
    (hclient : system.clientStep request = some next) :
    next.log = system.log ∨
    (∃ jobId decision,
      next.log = system.log ++ [.accepted jobId decision]) ∨
    (∃ jobId row, request = .abort jobId ∧
      system.store.job? jobId = some row ∧
      system.store.affectedRows (requestAbort jobId) = 1 ∧
      next.log = system.log ++ [.abortAccepted jobId row.status]) := by
  cases request with
  | create created settings =>
      simp only [System.clientStep] at hclient
      split at hclient
      · cases hclient
        exact Or.inl rfl
      · cases hclient
  | view client viewed =>
      obtain ⟨_, _, rfl⟩ := Option.map_eq_some_iff.mp hclient
      exact Or.inl rfl
  | post client choice index =>
      obtain ⟨view, hview, rfl⟩ := Option.map_eq_some_iff.mp hclient
      simp only [System.submit]
      split
      · exact Or.inr (Or.inl ⟨_, _, rfl⟩)
      · exact Or.inl rfl
  | abort aborted =>
      obtain ⟨row, hrow, rfl⟩ := Option.map_eq_some_iff.mp hclient
      simp only
      split
      · rename_i haccepted
        exact Or.inr (Or.inr ⟨aborted, row, rfl, hrow, haccepted, rfl⟩)
      · exact Or.inl rfl

/-- A step moves at most the worker it belongs to. -/
theorem step_workers {host : Host W} {system next : System W}
    {action : Action W} (hstep : system.step host action = some next)
    (worker : WorkerId) :
    (action.worker? ≠ some worker ∧
      next.workers worker = system.workers worker) ∨
    ∃ move, WorkerMove host system worker action move ∧
      next = system.apply worker move ∧
      next.workers worker = ⟨move.phase, move.wasLeader⟩ := by
  rcases step_cases hstep with ⟨mover, move, hmove, rfl⟩ |
    ⟨request, rfl, hclient⟩ | ⟨_, rfl, rfl⟩ | ⟨_, rfl, rfl⟩
  · by_cases hsame : worker = mover
    · subst hsame
      exact Or.inr ⟨move, hmove, rfl, by simp [System.apply]⟩
    · refine Or.inl ⟨fun hmover => hsame ?_, by simp [System.apply, hsame]⟩
      exact (Option.some.inj (hmove.worker?.symm.trans hmover)).symm
  · exact Or.inl ⟨nofun, congrFun (clientStep_frame hclient).1 worker⟩
  · exact Or.inl ⟨nofun, rfl⟩
  · exact Or.inl ⟨nofun, rfl⟩

/-- The action is this worker's, or no worker's. -/
def Action.onlyOf (worker : WorkerId) (action : Action W) : Prop :=
  action.worker? = none ∨ action.worker? = some worker

instance (worker : WorkerId) (action : Action W) :
    Decidable (action.onlyOf worker) :=
  inferInstanceAs (Decidable (_ ∨ _))

theorem onlyOf_eq {worker mover : WorkerId} {action : Action W}
    (honly : action.onlyOf worker) (hmover : action.worker? = some mover) :
    mover = worker := by
  rcases honly with hnone | hsome
  · rw [hnone] at hmover
    cases hmover
  · rw [hsome] at hmover
    exact (Option.some.inj hmover).symm

/-- Only these workers have started. -/
def System.Started (workers : List WorkerId) (system : System W) : Prop :=
  ∀ other, other ∉ workers → system.workers other = ⟨.booting, false⟩

theorem started_initial (workers : List WorkerId) (world : W) :
    (System.initial world).Started workers :=
  fun _ _ => rfl

theorem started_step {host : Host W} {system next : System W}
    {action : Action W} {workers : List WorkerId}
    (hstarted : system.Started workers)
    (hmover : ∀ worker ∈ action.worker?, worker ∈ workers)
    (hstep : system.step host action = some next) : next.Started workers := by
  intro other hother
  rcases step_workers hstep other with ⟨_, hsame⟩ | ⟨move, hmove, _, _⟩
  · rw [hsame]
    exact hstarted other hother
  · exact absurd (hmover other hmove.worker?) hother

/-- No other worker has started. -/
def System.Alone (worker : WorkerId) (system : System W) : Prop :=
  ∀ other, other ≠ worker → system.workers other = ⟨.booting, false⟩

theorem alone_initial (worker : WorkerId) (world : W) :
    (System.initial world).Alone worker :=
  fun _ _ => rfl

theorem alone_step {host : Host W} {system next : System W}
    {action : Action W} {worker : WorkerId} (halone : system.Alone worker)
    (honly : action.onlyOf worker)
    (hstep : system.step host action = some next) : next.Alone worker := by
  intro other hne
  rcases step_workers hstep other with ⟨_, hsame⟩ | ⟨move, hmove, _, _⟩
  · rw [hsame]
    exact halone other hne
  · exact absurd (onlyOf_eq honly hmove.worker?) hne

end Beetkeeper
