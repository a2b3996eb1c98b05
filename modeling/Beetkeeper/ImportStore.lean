/-
The shared database of import jobs and the leased lock row.  Every operation
of the store is one conditional `UPDATE`, an `INSERT` or a `SELECT`; an
operation the source writes as a `SELECT` followed by an `UPDATE` is given as
its two statements, since another process may run in between.
-/
import Beetkeeper.KeyedTable
import Beetkeeper.ImportJobs

namespace Beetkeeper

/-- One row of the `import_job` table, its JSON columns decoded. -/
structure ImportJobRecord where
  id : JobId
  status : ImportJobStatus
  paths : List OsPath
  createdAt : Nat
  claimedBy : Option WorkerId
  error : Option String
  abortRequested : Bool
  quiet : Bool
  logpath : Option String
  groupAlbums : Bool
  flat : Bool
  setFields : StrDict
  cleanSlateAlbumId : Option Nat
  cleanSlateItemId : Option Nat
  cleanSlateAllowFewerFiles : Bool
  pendingDecision : Option DecisionRequest
  submittedDecision : Option ImportDecision
  output : Option String
deriving Repr, DecidableEq

/-- Map a persisted row onto the API-facing view. -/
def ImportJobRecord.toView (record : ImportJobRecord) : ImportJob where
  id := record.id
  status := record.status
  paths := record.paths
  createdAt := record.createdAt
  error := record.error
  pendingDecision := record.pendingDecision
  decisionSubmitted := record.submittedDecision.isSome
  output := record.output
  quiet := record.quiet
  logpath := record.logpath
  groupAlbums := record.groupAlbums
  flat := record.flat
  setFields := record.setFields
  cleanSlateAlbumId := record.cleanSlateAlbumId
  cleanSlateItemId := record.cleanSlateItemId
  cleanSlateAllowFewerFiles := record.cleanSlateAllowFewerFiles

/-- The per-job import settings a submission carries. -/
structure JobSettings where
  paths : List OsPath
  quiet : Bool
  logpath : Option String
  groupAlbums : Bool
  flat : Bool
  setFields : StrDict
  cleanSlateAlbumId : Option Nat
  cleanSlateItemId : Option Nat
  cleanSlateAllowFewerFiles : Bool
deriving Repr, DecidableEq

/-- The keyword defaults of `create`. -/
def JobSettings.ofPaths (paths : List OsPath) : JobSettings where
  paths := paths
  quiet := false
  logpath := none
  groupAlbums := false
  flat := false
  setFields := []
  cleanSlateAlbumId := none
  cleanSlateItemId := none
  cleanSlateAllowFewerFiles := false

/-- The row `create` inserts. -/
def JobSettings.newRecord (settings : JobSettings) (id : JobId) (now : Nat) :
    ImportJobRecord where
  id := id
  status := .pending
  paths := settings.paths
  createdAt := now
  claimedBy := none
  error := none
  abortRequested := false
  quiet := settings.quiet
  logpath := settings.logpath
  groupAlbums := settings.groupAlbums
  flat := settings.flat
  setFields := settings.setFields
  cleanSlateAlbumId := settings.cleanSlateAlbumId
  cleanSlateItemId := settings.cleanSlateItemId
  cleanSlateAllowFewerFiles := settings.cleanSlateAllowFewerFiles
  pendingDecision := none
  submittedDecision := none
  output := none

/-- The single lock row electing the process that runs imports. -/
structure ImportLock where
  holder : Option WorkerId
  leaseExpiresAt : Option Nat
deriving Repr, DecidableEq

/-- The job table, and the lock row once it exists. -/
structure ImportStore where
  jobs : KeyedTable ImportJobRecord ImportJobRecord.id
  lock : Option ImportLock

/-- A conditional `UPDATE import_job`; no statement of the store writes the
primary key. -/
structure JobUpdate where
  applies : ImportJobRecord → Bool
  set : ImportJobRecord → ImportJobRecord
  keepsId : ∀ row, (set row).id = row.id

/-- What the statement does to one row. -/
def JobUpdate.onRow (update : JobUpdate) (row : ImportJobRecord) :
    ImportJobRecord :=
  if update.applies row then update.set row else row

namespace ImportStore

def empty : ImportStore := ⟨KeyedTable.empty, none⟩

def job? (store : ImportStore) (jobId : JobId) : Option ImportJobRecord :=
  store.jobs.get? jobId

def execute (store : ImportStore) (update : JobUpdate) : ImportStore :=
  { store with
    jobs := store.jobs.update update.applies update.set update.keepsId }

def affectedRows (store : ImportStore) (update : JobUpdate) : Nat :=
  store.jobs.affected update.applies

@[simp] theorem job?_empty (jobId : JobId) : empty.job? jobId = none := rfl

@[simp] theorem job?_execute (store : ImportStore) (update : JobUpdate)
    (jobId : JobId) :
    (store.execute update).job? jobId =
      (store.job? jobId).map update.onRow :=
  KeyedTable.get?_update store.jobs update.applies update.set update.keepsId
    jobId

theorem job?_id {store : ImportStore} {jobId : JobId} {row : ImportJobRecord}
    (hrow : store.job? jobId = some row) : row.id = jobId :=
  KeyedTable.get?_key hrow

/-- Insert a new PENDING job and return its view.  `id` is the fresh job id,
`now` the clock. -/
def create (store : ImportStore) (id : JobId) (now : Nat)
    (settings : JobSettings) : Except String (ImportStore × ImportJob) :=
  if settings.cleanSlateAlbumId.isSome && settings.cleanSlateItemId.isSome then
    .error "A clean slate names an album or a standalone track, not both."
  else
    match store.jobs.insert? (settings.newRecord id now) with
    | none => .error "UNIQUE constraint failed: import_job.id"
    | some jobs =>
        .ok ({ store with jobs := jobs }, (settings.newRecord id now).toView)

/-- The job's view, or none. -/
def get (store : ImportStore) (jobId : JobId) : Option ImportJob :=
  (store.job? jobId).map ImportJobRecord.toView

theorem get_eq_some {store : ImportStore} {jobId : JobId} {job : ImportJob}
    (hget : store.get jobId = some job) :
    ∃ row, store.job? jobId = some row ∧ job = row.toView ∧
      job.id = jobId := by
  obtain ⟨row, hrow, rfl⟩ := Option.map_eq_some_iff.mp hget
  exact ⟨row, hrow, rfl, job?_id hrow⟩

end ImportStore

/-- `set_status`: the status and, when one is given, the error; the pending
decision is cleared, the submitted one is not touched. -/
def setStatus (jobId : JobId) (status : ImportJobStatus)
    (error : Option String) : JobUpdate where
  applies row := decide (row.id = jobId)
  set row :=
    { row with
      status := status, pendingDecision := none,
      error := error.or row.error }
  keepsId _ := rfl

theorem setStatus_onRow {jobId : JobId} {status : ImportJobStatus}
    {error : Option String} {row : ImportJobRecord} (hid : row.id = jobId) :
    (setStatus jobId status error).onRow row =
      { row with
        status := status, pendingDecision := none,
        error := error.or row.error } :=
  if_pos (decide_eq_true hid)

def setOutput (jobId : JobId) (output : String) : JobUpdate where
  applies row := decide (row.id = jobId)
  set row := { row with output := some output }
  keepsId _ := rfl

/-- `set_awaiting`: park the job on a request, whatever its status. -/
def setAwaiting (request : DecisionRequest) : JobUpdate where
  applies row := decide (row.id = request.jobId)
  set row :=
    { row with
      status := .awaitingDecision, pendingDecision := some request,
      submittedDecision := none }
  keepsId _ := rfl

theorem setAwaiting_onRow {request : DecisionRequest} {row : ImportJobRecord}
    (hid : row.id = request.jobId) :
    (setAwaiting request).onRow row =
      { row with
        status := .awaitingDecision, pendingDecision := some request,
        submittedDecision := none } :=
  if_pos (decide_eq_true hid)

/-- `submit_decision`: record an answer if the job awaits one and none was
submitted. -/
def submitDecision (jobId : JobId) (decision : ImportDecision) :
    JobUpdate where
  applies row := decide (row.id = jobId) &&
    (decide (row.status = .awaitingDecision) && row.submittedDecision.isNone)
  set row := { row with submittedDecision := some decision }
  keepsId _ := rfl

/-- The `UPDATE` of `take_decision`: consume the stored answer. -/
def takeDecision (jobId : JobId) : JobUpdate where
  applies row := decide (row.id = jobId) && row.submittedDecision.isSome
  set row :=
    { row with
      submittedDecision := none, pendingDecision := none,
      status := .running }
  keepsId _ := rfl

theorem takeDecision_onRow {jobId : JobId} {row : ImportJobRecord}
    (hid : row.id = jobId) (hstored : row.submittedDecision.isSome = true) :
    (takeDecision jobId).onRow row =
      { row with
        submittedDecision := none, pendingDecision := none,
        status := .running } :=
  if_pos (Bool.and_eq_true_iff.mpr ⟨decide_eq_true hid, hstored⟩)

/-- `request_abort`: flag a job that has not ended. -/
def requestAbort (jobId : JobId) : JobUpdate where
  applies row := decide (row.id = jobId) &&
    decide (row.status ∈ ImportJobStatus.abortable)
  set row := { row with abortRequested := true }
  keepsId _ := rfl

/-- The `UPDATE` of `claim_next`: flip the selected job to RUNNING if it is
still PENDING. -/
def claimSelected (jobId : JobId) (worker : WorkerId) : JobUpdate where
  applies row := decide (row.id = jobId) && decide (row.status = .pending)
  set row := { row with status := .running, claimedBy := some worker }
  keepsId _ := rfl

theorem claimSelected_onRow {jobId : JobId} {worker : WorkerId}
    {row : ImportJobRecord} (hid : row.id = jobId) :
    (claimSelected jobId worker).onRow row =
      if row.status = .pending then
        { row with status := .running, claimedBy := some worker }
      else row := by
  simp [JobUpdate.onRow, claimSelected, hid]

theorem submitDecision_onRow {jobId : JobId} {decision : ImportDecision}
    {row : ImportJobRecord} (hid : row.id = jobId) :
    (submitDecision jobId decision).onRow row =
      if row.status = .awaitingDecision ∧ row.submittedDecision = none then
        { row with submittedDecision := some decision }
      else row := by
  simp [JobUpdate.onRow, submitDecision, hid]

theorem requestAbort_onRow {jobId : JobId} {row : ImportJobRecord}
    (hid : row.id = jobId) :
    (requestAbort jobId).onRow row =
      if row.status ∈ ImportJobStatus.abortable then
        { row with abortRequested := true }
      else row := by
  simp [JobUpdate.onRow, requestAbort, hid]

/-- `recover_orphans`: fail every active job another worker claimed.  The SQL
test `claimed_by != worker` does not hold of a NULL. -/
def recoverOrphans (worker : WorkerId) : JobUpdate where
  applies row := decide (row.status ∈ ImportJobStatus.active) &&
    row.claimedBy.any fun owner => decide (owner ≠ worker)
  set row :=
    { row with
      status := .failed,
      error := some "Interrupted: the import worker restarted.",
      pendingDecision := none }
  keepsId _ := rfl

namespace ImportStore

/-- The `SELECT` of `take_decision`. -/
def submittedDecision (store : ImportStore) (jobId : JobId) :
    Option ImportDecision :=
  (store.job? jobId).bind ImportJobRecord.submittedDecision

def isAbortRequested (store : ImportStore) (jobId : JobId) : Bool :=
  (store.job? jobId).any ImportJobRecord.abortRequested

/-- Whether `claim_next`'s `SELECT` may return this job: it is PENDING and no
PENDING job is older.  SQLite is free among jobs of one age. -/
def oldestPending (store : ImportStore) (jobId : JobId) : Bool :=
  (store.job? jobId).any fun row =>
    decide (row.status = .pending) &&
      store.jobs.rows.all fun other =>
        decide (other.status = .pending → row.createdAt ≤ other.createdAt)

def nonePending (store : ImportStore) : Bool :=
  store.jobs.rows.all fun row => decide (row.status ≠ .pending)

/-- `ensure_lock_row`. -/
def ensureLockRow (store : ImportStore) : ImportStore :=
  { store with lock := some (store.lock.getD ⟨none, none⟩) }

/-- The `WHERE` of `acquire_lock`; a comparison with NULL does not hold. -/
def lockAvailable (lock : ImportLock) (worker : WorkerId) (now : Nat) : Bool :=
  lock.holder == some worker || lock.holder.isNone ||
    lock.leaseExpiresAt.any fun expiry => decide (expiry < now)

/-- `acquire_lock`: acquire or renew the lease by one conditional `UPDATE`;
true if held. -/
def acquireLock (store : ImportStore) (worker : WorkerId) (now lease : Nat) :
    ImportStore × Bool :=
  match store.lock with
  | none => (store, false)
  | some lock =>
      if lockAvailable lock worker now then
        ({ store with lock := some ⟨some worker, some (now + lease)⟩ }, true)
      else (store, false)

@[simp] theorem jobs_acquireLock (store : ImportStore) (worker : WorkerId)
    (now lease : Nat) :
    (store.acquireLock worker now lease).1.jobs = store.jobs := by
  unfold acquireLock
  split
  · rfl
  · split <;> rfl

@[simp] theorem job?_acquireLock (store : ImportStore) (worker : WorkerId)
    (now lease : Nat) (jobId : JobId) :
    (store.acquireLock worker now lease).1.job? jobId = store.job? jobId := by
  simp [job?]

/-- Whoever acquires the lease is its holder from then on. -/
theorem acquireLock_won {store : ImportStore} {worker : WorkerId}
    {now lease : Nat} (hwon : (store.acquireLock worker now lease).2 = true) :
    ∃ lock, (store.acquireLock worker now lease).1.lock = some lock ∧
      lock.holder = some worker := by
  cases hlock : store.lock with
  | none => simp [acquireLock, hlock] at hwon
  | some lock =>
      by_cases havailable : lockAvailable lock worker now = true
      · simp [acquireLock, hlock, havailable]
      · simp [acquireLock, hlock, havailable] at hwon

/-- An `acquire_lock` that fails changes nothing. -/
theorem acquireLock_lost {store : ImportStore} {worker : WorkerId}
    {now lease : Nat}
    (hlost : ¬(store.acquireLock worker now lease).2 = true) :
    (store.acquireLock worker now lease).1 = store := by
  unfold acquireLock at hlost ⊢
  split
  · rfl
  · rename_i lock hlock
    simp only [hlock] at hlost
    split at hlost
    · exact absurd rfl hlost
    · rename_i havailable
      rw [if_neg havailable]

/-- A holder loses the lease to nobody else before it has expired. -/
theorem acquireLock_holder {store : ImportStore} {holder worker : WorkerId}
    {now lease : Nat} {lock : ImportLock} (hlock : store.lock = some lock)
    (hholder : lock.holder = some holder)
    (hexpired : holder = worker ∨
      (lock.leaseExpiresAt.any fun expiry => decide (expiry < now)) = false) :
    ∃ after, (store.acquireLock worker now lease).1.lock = some after ∧
      after.holder = some holder := by
  unfold acquireLock
  simp only [hlock]
  split
  · rename_i havailable
    rcases hexpired with rfl | hvalid
    · exact ⟨_, rfl, rfl⟩
    · simp only [lockAvailable, hholder, hvalid, Option.isNone_some,
        Bool.or_false, beq_iff_eq] at havailable
      exact ⟨_, rfl, havailable.symm⟩
  · exact ⟨lock, hlock, hholder⟩

/-- A successful `create` inserted the new row under a free id. -/
theorem create_eq_ok {store next : ImportStore} {id : JobId} {now : Nat}
    {settings : JobSettings} {view : ImportJob}
    (hcreate : store.create id now settings = .ok (next, view)) :
    store.jobs.insert? (settings.newRecord id now) = some next.jobs ∧
      next.lock = store.lock := by
  unfold create at hcreate
  split at hcreate
  · cases hcreate
  · split at hcreate
    · cases hcreate
    · rename_i jobs hinsert
      cases hcreate
      exact ⟨hinsert, rfl⟩

theorem job?_create {store next : ImportStore} {id : JobId} {now : Nat}
    {settings : JobSettings} {view : ImportJob}
    (hcreate : store.create id now settings = .ok (next, view))
    (jobId : JobId) :
    next.job? jobId =
      if id = jobId then some (settings.newRecord id now)
      else store.job? jobId :=
  KeyedTable.get?_insert? (create_eq_ok hcreate).1 jobId

theorem create_fresh {store next : ImportStore} {id : JobId} {now : Nat}
    {settings : JobSettings} {view : ImportJob}
    (hcreate : store.create id now settings = .ok (next, view)) :
    store.job? id = none :=
  (KeyedTable.insert?_eq_some_iff.mp (create_eq_ok hcreate).1).1

/-- The row under an id is the only one a test on that id can be about. -/
theorem exists_job?_iff {store : ImportStore} {jobId : JobId}
    {row : ImportJobRecord} {P : ImportJobRecord → Prop}
    (hrow : store.job? jobId = some row) :
    (∃ found, store.job? jobId = some found ∧ P found) ↔ P row := by
  constructor
  · rintro ⟨found, hfound, hP⟩
    obtain rfl := Option.some.inj (hfound.symm.trans hrow)
    exact hP
  · exact fun hP => ⟨row, hrow, hP⟩

theorem affectedRows_submitDecision {store : ImportStore} {jobId : JobId}
    {decision : ImportDecision} :
    store.affectedRows (submitDecision jobId decision) = 1 ↔
      ∃ row, store.job? jobId = some row ∧
        row.status = .awaitingDecision ∧ row.submittedDecision = none := by
  simp only [affectedRows, submitDecision,
    KeyedTable.affected_key_eq_one_iff, job?, Bool.and_eq_true,
    decide_eq_true_eq, Option.isNone_iff_eq_none]

theorem affectedRows_takeDecision {store : ImportStore} {jobId : JobId} :
    store.affectedRows (takeDecision jobId) = 1 ↔
      ∃ row, store.job? jobId = some row ∧
        row.submittedDecision.isSome = true := by
  simp only [affectedRows, takeDecision,
    KeyedTable.affected_key_eq_one_iff, job?]

theorem affectedRows_requestAbort {store : ImportStore} {jobId : JobId} :
    store.affectedRows (requestAbort jobId) = 1 ↔
      ∃ row, store.job? jobId = some row ∧
        row.status ∈ ImportJobStatus.abortable := by
  simp only [affectedRows, requestAbort,
    KeyedTable.affected_key_eq_one_iff, job?, decide_eq_true_eq]

theorem affectedRows_claimSelected {store : ImportStore} {jobId : JobId}
    {worker : WorkerId} :
    store.affectedRows (claimSelected jobId worker) = 1 ↔
      ∃ row, store.job? jobId = some row ∧ row.status = .pending := by
  simp only [affectedRows, claimSelected,
    KeyedTable.affected_key_eq_one_iff, job?, decide_eq_true_eq]

end ImportStore

end Beetkeeper
