/-
The running system: any number of worker processes over one shared store, the
clients of the API, the clock, and what lies outside.  A worker is described by
where its leader loop stands; while it runs a job, the beets thread, the lease
renewal and the output flush each stand somewhere of their own.  One action is
one database statement or one step between two statements.
-/
import Mathlib.Logic.Function.Basic
import Beetkeeper.Transition
import Beetkeeper.ImportStore

namespace Beetkeeper

/-- `_LEASE_SECONDS`, in microseconds. -/
def leaseMicros : Nat := 30000000

/-- `_FINALIZE_ATTEMPTS`. -/
def finalizeAttempts : Nat := 5

/-- A client of the API, a browser tab say. -/
abbrev ClientId := Nat

/-- The append-only accumulator of a job's output. -/
structure OutputBuffer where
  lines : List String
  version : Nat
deriving Repr, DecidableEq

namespace OutputBuffer

def empty : OutputBuffer := ⟨[], 0⟩

def append (buffer : OutputBuffer) (line : String) : OutputBuffer :=
  ⟨buffer.lines ++ [line], buffer.version + 1⟩

def extendLines (buffer : OutputBuffer) (lines : List String) : OutputBuffer :=
  ⟨buffer.lines ++ lines.map fun line => s!"  {line}", buffer.version + 1⟩

def text (buffer : OutputBuffer) : String :=
  "\n".intercalate buffer.lines

end OutputBuffer

/-- Where `_run_import_blocking` stands in its thread. -/
inductive ImportThread where
  /-- the session has not started, nor a clean slate removed anything -/
  | starting
  /-- inside `session.run`, between two hooks -/
  | importing
  /-- `DecisionBridge.request` entered, `set_awaiting` not yet issued -/
  | publishing (taskId prompt : String) (candidates : List ImportCandidate)
  /-- about to read the submitted decision -/
  | polling
  /-- a submitted decision was read and is about to be consumed -/
  | taking (decision : ImportDecision)
  /-- `take_decision` returned None; about to read the abort flag -/
  | checking
  | ended (failure : Option String)
deriving Repr, DecidableEq

/-- The task group of `_run_job`: the import thread, the renewal (with the
clock it read, once it has read it) and the output flush (with its snapshot).
`requests` counts the decision requests published so far, which makes it the
serial of the one being waited for; it is history only. -/
structure RunState where
  job : ImportJob
  thread : ImportThread
  requests : Nat
  output : OutputBuffer
  renewing : Option Nat
  flushing : Option (Nat × String)
  flushed : Option Nat
deriving Repr, DecidableEq

/-- A run as `_run_job` starts it. -/
def RunState.initial (job : ImportJob) : RunState where
  job := job
  thread := .starting
  requests := 0
  output := OutputBuffer.empty
  renewing := none
  flushing := none
  flushed := none

/-- Where the leader loop of a worker stands. -/
inductive Phase where
  | booting
  | idle
  | acquiring (now : Nat)
  | recovering
  | claiming
  | selected (jobId : JobId)
  | claimed (jobId : JobId)
  | running (run : RunState)
  /-- the task group is left; the abort flag has not been read -/
  | concluding (jobId : JobId) (output : OutputBuffer)
      (failure : Option String)
  /-- `_finalize_job`, in its `attempt`-th attempt -/
  | finalizing (jobId : JobId) (output : OutputBuffer)
      (outcome : JobOutcome) (error : Option String) (attempt : Nat)
      (outputWritten : Bool)
  | dead
deriving Repr, DecidableEq

/-- The job a worker has claimed and not yet finished with. -/
def Phase.job? : Phase → Option JobId
  | .claimed jobId => some jobId
  | .running run => some run.job.id
  | .concluding jobId _ _ => some jobId
  | .finalizing jobId _ _ _ _ _ => some jobId
  | _ => none

/-- Whether the worker is between a successful `acquire_lock` of its cycle and
the end of that cycle. -/
def Phase.leading : Phase → Bool
  | .booting => false
  | .idle => false
  | .acquiring _ => false
  | .dead => false
  | _ => true

/-- Whether the worker is executing `_run_import_blocking`. -/
def Phase.importing : Phase → Bool
  | .running run =>
      match run.thread with
      | .ended _ => false
      | _ => true
  | _ => false

structure Worker where
  phase : Phase
  wasLeader : Bool
deriving Repr, DecidableEq

/-- The job view a client has read: the job, and the serial of the decision
request that was pending in it. -/
structure ClientView where
  jobId : JobId
  viewed : Option Nat
deriving Repr, DecidableEq

/-- What the store has answered so far; history only. -/
inductive Event where
  /-- `submit_decision` returned True -/
  | accepted (jobId : JobId) (decision : ImportDecision)
  /-- `take_decision` returned a decision to the request with this serial -/
  | taken (jobId : JobId) (decision : ImportDecision) (serial : Nat)
  /-- `request_abort` returned True for a job in this status -/
  | abortAccepted (jobId : JobId) (status : ImportJobStatus)
  /-- a store call of `DecisionBridge.request` raised -/
  | bridgeFailed (jobId : JobId)
deriving Repr, DecidableEq

/-- `W` is what the imports work on: the beets library and the file system. -/
structure System (W : Type) where
  store : ImportStore
  clock : Nat
  workers : WorkerId → Worker
  clients : ClientId → Option ClientView
  world : W
  log : List Event

/-- Nothing submitted, no worker started. -/
def System.initial {W : Type} (world : W) : System W where
  store := ImportStore.empty
  clock := 0
  workers := fun _ => ⟨.booting, false⟩
  clients := fun _ => none
  world := world
  log := []

/-- The code of `_clean_slate_blocking` on a world of this kind: the world it
leaves behind, and how it ended. -/
structure Host (W : Type) where
  cleanSlate : ImportJob → W → W × Except String Unit

/-- A statement on the job table, one for each operation of the store. -/
inductive JobStatement where
  | setStatus (jobId : JobId) (outcome : JobOutcome) (error : Option String)
  | setOutput (jobId : JobId) (output : String)
  | setAwaiting (request : DecisionRequest)
  | submitDecision (jobId : JobId) (decision : ImportDecision)
  | takeDecision (jobId : JobId)
  | requestAbort (jobId : JobId)
  | claimSelected (jobId : JobId) (worker : WorkerId)
  | recoverOrphans (worker : WorkerId)

def JobStatement.update : JobStatement → JobUpdate
  | .setStatus jobId outcome error =>
      Beetkeeper.setStatus jobId outcome.status error
  | .setOutput jobId output => Beetkeeper.setOutput jobId output
  | .setAwaiting request => Beetkeeper.setAwaiting request
  | .submitDecision jobId decision =>
      Beetkeeper.submitDecision jobId decision
  | .takeDecision jobId => Beetkeeper.takeDecision jobId
  | .requestAbort jobId => Beetkeeper.requestAbort jobId
  | .claimSelected jobId worker => Beetkeeper.claimSelected jobId worker
  | .recoverOrphans worker => Beetkeeper.recoverOrphans worker

/-- What a worker's step sends to the database. -/
inductive Statement where
  /-- a `SELECT`, or nothing -/
  | read
  | job (statement : JobStatement)
  | acquireLock (now : Nat)
  | ensureLockRow

def ImportStore.perform (store : ImportStore) (worker : WorkerId) :
    Statement → ImportStore
  | .read => store
  | .job statement => store.execute statement.update
  | .acquireLock now => (store.acquireLock worker now leaseMicros).1
  | .ensureLockRow => store.ensureLockRow

/-- One step of a worker: the phase it moves to and what it did. -/
structure Move (W : Type) where
  phase : Phase
  wasLeader : Bool
  statement : Statement
  world : W
  events : List Event

/-- The steps of the leader loop outside a running job.  `fault` is a database
statement that raises without effect, or a failed conclusion of the run. -/
inductive LoopAction where
  | boot
  | readClock
  | acquire
  | recover
  | select (jobId : JobId)
  | selectNone
  | claim
  | reread
  | conclude
  | writeOutput
  | writeStatus
  | fault (message : String)
  | crash
deriving Repr, DecidableEq

/-- The steps inside a running job. -/
inductive RunAction where
  | narrate (lines : List String)
  | extendLines (lines : List String)
  | startSession
  | cleanSlate
  | choose (taskId prompt : String) (candidates : List ImportCandidate)
  | publish
  | poll
  | take
  | checkAbort
  | endImport (failure : Option String)
  | bridgeFault (message : String)
  | renewClock
  | renew
  | renewFault
  | flushSnapshot
  | flush
  | flushFault
  | leave
deriving Repr, DecidableEq

/-- The requests of the API's clients. -/
inductive ClientAction where
  | create (jobId : JobId) (settings : JobSettings)
  | view (client : ClientId) (jobId : JobId)
  | post (client : ClientId) (action : ImportAction)
      (candidateIndex : Option Int)
  | abort (jobId : JobId)
deriving Repr, DecidableEq

inductive Action (W : Type) where
  | loop (worker : WorkerId) (action : LoopAction)
  | run (worker : WorkerId) (action : RunAction)
  | client (action : ClientAction)
  | tick (micros : Nat)
  /-- other programs, and beets itself, act on the world -/
  | outside (world : W)

/-- The worker an action belongs to. -/
def Action.worker? {W : Type} : Action W → Option WorkerId
  | .loop worker _ => some worker
  | .run worker _ => some worker
  | _ => none

/-- `_build_decision_request`, as the `serial`-th request of the job. -/
def buildDecisionRequest (job : ImportJob) (serial : Nat)
    (taskId prompt : String) (candidates : List ImportCandidate) :
    DecisionRequest where
  jobId := job.id
  taskId := taskId
  prompt := prompt
  candidates := candidates
  allowedActions := [.apply, .asis, .skip]
  serial := serial

section

variable {W : Type}

/-- A step that only moves the loop on. -/
def System.moveTo (system : System W) (worker : WorkerId) (phase : Phase) :
    Move W where
  phase := phase
  wasLeader := (system.workers worker).wasLeader
  statement := .read
  world := system.world
  events := []

/-- `_run_one_cycle` and what of `_run_job` follows its task group. -/
def System.loopMove (system : System W) (worker : WorkerId)
    (action : LoopAction) : Option (Move W) :=
  match action, (system.workers worker).phase with
  | .boot, .booting =>
      some { system.moveTo worker .idle with statement := .ensureLockRow }
  | .readClock, .idle =>
      some (system.moveTo worker (.acquiring system.clock))
  | .acquire, .acquiring now =>
      if (system.store.acquireLock worker now leaseMicros).2 then
        some { system.moveTo worker
            (if (system.workers worker).wasLeader then .claiming
              else .recovering) with
          statement := .acquireLock now }
      else
        some { system.moveTo worker .idle with
          wasLeader := false, statement := .acquireLock now }
  | .recover, .recovering =>
      some { system.moveTo worker .claiming with
        wasLeader := true, statement := .job (.recoverOrphans worker) }
  | .select jobId, .claiming =>
      if system.store.oldestPending jobId then
        some (system.moveTo worker (.selected jobId))
      else none
  | .selectNone, .claiming =>
      if system.store.nonePending then some (system.moveTo worker .idle)
      else none
  | .claim, .selected jobId =>
      -- a lost race is a `claim_next` that returns None
      if system.store.affectedRows (claimSelected jobId worker) = 1 then
        some { system.moveTo worker (.claimed jobId) with
          statement := .job (.claimSelected jobId worker) }
      else
        some { system.moveTo worker .idle with
          statement := .job (.claimSelected jobId worker) }
  | .reread, .claimed jobId =>
      match system.store.get jobId with
      | some job => some (system.moveTo worker (.running (.initial job)))
      | none => some (system.moveTo worker .idle)
  | .conclude, .concluding jobId output failure =>
      match failure with
      | none =>
          if system.store.isAbortRequested jobId then
            some (system.moveTo worker
              (.finalizing jobId (output.append "Import aborted.") .aborted
                none 1 false))
          else
            some (system.moveTo worker
              (.finalizing jobId (output.append "Import completed.")
                .completed none 1 false))
      | some message =>
          some (system.moveTo worker
            (.finalizing jobId (output.append s!"Import failed: {message}")
              .failed (some message) 1 false))
  | .writeOutput, .finalizing jobId output outcome error attempt false =>
      some { system.moveTo worker
          (.finalizing jobId output outcome error attempt true) with
        statement := .job (.setOutput jobId output.text) }
  | .writeStatus, .finalizing jobId _ outcome error _ true =>
      some { system.moveTo worker .idle with
        statement := .job (.setStatus jobId outcome error) }
  | .fault message, .concluding jobId output none =>
      some (system.moveTo worker
        (.finalizing jobId (output.append s!"Import failed: {message}")
          .failed (some message) 1 false))
  | .fault _, .finalizing jobId output outcome error attempt _ =>
      if attempt < finalizeAttempts then
        some (system.moveTo worker
          (.finalizing jobId output outcome error (attempt + 1) false))
      else some (system.moveTo worker .idle)
  | .fault _, .acquiring _ => some (system.moveTo worker .idle)
  | .fault _, .recovering => some (system.moveTo worker .idle)
  | .fault _, .claiming => some (system.moveTo worker .idle)
  | .fault _, .selected _ => some (system.moveTo worker .idle)
  | .fault _, .claimed _ => some (system.moveTo worker .idle)
  | .crash, .dead => none
  | .crash, _ => some (system.moveTo worker .dead)
  | _, _ => none

/-- A step inside a running job that leaves the store alone. -/
def System.keepRunning (system : System W) (worker : WorkerId)
    (run : RunState) : Move W :=
  system.moveTo worker (.running run)

/-- The import thread (`WebImportSession._choose`, `DecisionBridge.request`),
the lease renewal and the output flush of a running job. -/
def System.runMove (host : Host W) (system : System W) (worker : WorkerId)
    (run : RunState) (action : RunAction) : Option (Move W) :=
  match action, run.thread with
  | .narrate lines, _ =>
      some (system.keepRunning worker
        { run with output := lines.foldl OutputBuffer.append run.output })
  | .extendLines lines, _ =>
      some (system.keepRunning worker
        { run with output := run.output.extendLines lines })
  | .startSession, .starting =>
      if run.job.isCleanSlate then none
      else some (system.keepRunning worker { run with thread := .importing })
  | .cleanSlate, .starting =>
      if run.job.isCleanSlate then
        match host.cleanSlate run.job system.world with
        | (world, .ok ()) =>
            some { system.keepRunning worker
              { run with thread := .importing } with world := world }
        | (world, .error message) =>
            some { system.keepRunning worker
              { run with thread := .ended (some message) } with
              world := world }
      else none
  | .choose taskId prompt candidates, .importing =>
      -- an abort skips the task; a quiet job never prompts
      if system.store.isAbortRequested run.job.id || run.job.quiet then
        some (system.keepRunning worker run)
      else
        some (system.keepRunning worker
          { run with thread := .publishing taskId prompt candidates })
  | .publish, .publishing taskId prompt candidates =>
      some { system.keepRunning worker
          { run with thread := .polling, requests := run.requests + 1 } with
        statement := .job (.setAwaiting (buildDecisionRequest run.job
          (run.requests + 1) taskId prompt candidates)) }
  | .poll, .polling =>
      match system.store.submittedDecision run.job.id with
      | some decision =>
          some (system.keepRunning worker { run with thread := .taking decision })
      | none =>
          some (system.keepRunning worker { run with thread := .checking })
  | .take, .taking decision =>
      if system.store.affectedRows (takeDecision run.job.id) = 1 then
        some { system.keepRunning worker { run with thread := .importing } with
          statement := .job (.takeDecision run.job.id),
          events := [.taken run.job.id decision run.requests] }
      else
        some { system.keepRunning worker { run with thread := .checking } with
          statement := .job (.takeDecision run.job.id) }
  | .checkAbort, .checking =>
      if system.store.isAbortRequested run.job.id then
        some (system.keepRunning worker { run with thread := .importing })
      else
        some (system.keepRunning worker { run with thread := .polling })
  | .endImport failure, .starting =>
      some (system.keepRunning worker { run with thread := .ended failure })
  | .endImport failure, .importing =>
      some (system.keepRunning worker { run with thread := .ended failure })
  | .bridgeFault message, .publishing _ _ _ =>
      some { system.keepRunning worker
          { run with thread := .ended (some message) } with
        events := [.bridgeFailed run.job.id] }
  | .bridgeFault message, .polling =>
      some { system.keepRunning worker
          { run with thread := .ended (some message) } with
        events := [.bridgeFailed run.job.id] }
  | .bridgeFault message, .taking _ =>
      some { system.keepRunning worker
          { run with thread := .ended (some message) } with
        events := [.bridgeFailed run.job.id] }
  | .bridgeFault message, .checking =>
      some { system.keepRunning worker
          { run with thread := .ended (some message) } with
        events := [.bridgeFailed run.job.id] }
  | .renewClock, _ =>
      if run.renewing.isNone then
        some (system.keepRunning worker
          { run with renewing := some system.clock })
      else none
  | .renew, _ =>
      -- neither a False nor an exception ends the renewal task
      match run.renewing with
      | some now =>
          some { system.keepRunning worker { run with renewing := none } with
            statement := .acquireLock now }
      | none => none
  | .renewFault, _ =>
      if run.renewing.isSome then
        some (system.keepRunning worker { run with renewing := none })
      else none
  | .flushSnapshot, _ =>
      if run.flushing.isNone && run.flushed != some run.output.version then
        some (system.keepRunning worker
          { run with
            flushing := some (run.output.version, run.output.text) })
      else none
  | .flush, _ =>
      match run.flushing with
      | some (version, text) =>
          some { system.keepRunning worker
              { run with flushing := none, flushed := some version } with
            statement := .job (.setOutput run.job.id text) }
      | none => none
  | .flushFault, _ =>
      if run.flushing.isSome then
        some (system.keepRunning worker { run with flushing := none })
      else none
  | .leave, .ended failure =>
      -- the scope is cancelled; a shielded statement in flight ends first
      if run.renewing.isNone && run.flushing.isNone then
        some (system.moveTo worker
          (.concluding run.job.id run.output failure))
      else none
  | _, _ => none

/-- A worker's step carried out. -/
def System.apply (system : System W) (worker : WorkerId) (move : Move W) :
    System W :=
  { system with
    store := system.store.perform worker move.statement
    workers := Function.update system.workers worker
      ⟨move.phase, move.wasLeader⟩
    world := move.world
    log := system.log ++ move.events }

/-- A decision posted for a job. -/
def System.submit (system : System W) (jobId : JobId)
    (decision : ImportDecision) : System W :=
  { system with
    store := system.store.execute (submitDecision jobId decision)
    log := if system.store.affectedRows (submitDecision jobId decision) = 1
      then system.log ++ [.accepted jobId decision] else system.log }

/-- A client's request against the store. -/
def System.clientStep (system : System W) :
    ClientAction → Option (System W)
  | .create jobId settings =>
      match system.store.create jobId system.clock settings with
      | .ok (store, _) => some { system with store := store }
      | .error _ => none
  | .view client jobId =>
      (system.store.get jobId).map fun job =>
        { system with
          clients := Function.update system.clients client
            (some ⟨jobId, job.pendingDecision.map DecisionRequest.serial⟩) }
  | .post client action candidateIndex =>
      (system.clients client).map fun view =>
        system.submit view.jobId ⟨action, candidateIndex, view.viewed⟩
  | .abort jobId =>
      (system.store.job? jobId).map fun row =>
        { system with
          store := system.store.execute (requestAbort jobId)
          log := if system.store.affectedRows (requestAbort jobId) = 1 then
              system.log ++ [.abortAccepted jobId row.status]
            else system.log }

/-- One step of the whole system. -/
def System.step (host : Host W) (system : System W) :
    Action W → Option (System W)
  | .loop worker action =>
      (system.loopMove worker action).map (system.apply worker)
  | .run worker action =>
      match (system.workers worker).phase with
      | .running run =>
          (system.runMove host worker run action).map (system.apply worker)
      | _ => none
  | .client action => system.clientStep action
  | .tick micros => some { system with clock := system.clock + micros }
  | .outside world => some { system with world := world }

/-- The state a run from the empty store ends in. -/
def System.runFrom (host : Host W) (world : W) (actions : List (Action W)) :
    Option (System W) :=
  Transition.exec (System.step host) (System.initial world) actions

end

end Beetkeeper
