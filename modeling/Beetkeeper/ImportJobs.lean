/-
The data of interactive import jobs: lifecycle states, the decision request a
running job may park on and the answer the UI posts back, the clean-slate
target and its preview, and the job view the API and the worker read.
-/
import Beetkeeper.LexicalPath

namespace Beetkeeper

open LexicalPath

/-- A unique job id (`uuid4().hex`). -/
abbrev JobId := Nat

/-- A unique-per-process worker id. -/
abbrev WorkerId := Nat

/-- A path as a request or a library row spells it. -/
abbrev OsPath := RawPath String

/-- A Python `dict` with string keys: entries in insertion order. -/
abbrev StrDict := List (String × String)

/-- Lifecycle states of an import job. -/
inductive ImportJobStatus where
  | pending
  | running
  | awaitingDecision
  | completed
  | failed
  | aborted
deriving Repr, DecidableEq

namespace ImportJobStatus

/-- `_ACTIVE`: the states of a job some worker is running. -/
def active : List ImportJobStatus := [running, awaitingDecision]

/-- `_ABORTABLE`: the states in which an abort request is accepted. -/
def abortable : List ImportJobStatus := pending :: active

/-- The states a job ends in. -/
def terminal : List ImportJobStatus := [completed, failed, aborted]

theorem mem_terminal_iff {status : ImportJobStatus} :
    status ∈ terminal ↔ status ∉ abortable := by
  cases status <;> decide

theorem ne_pending_of_active {status : ImportJobStatus}
    (hactive : status ∈ active) : status ≠ pending := by
  rintro rfl
  simp [active] at hactive

end ImportJobStatus

/-- How a run ends: the statuses `_finalize_job` writes. -/
inductive JobOutcome where
  | completed
  | failed
  | aborted
deriving Repr, DecidableEq

def JobOutcome.status : JobOutcome → ImportJobStatus
  | .completed => .completed
  | .failed => .failed
  | .aborted => .aborted

namespace JobOutcome

theorem status_terminal (outcome : JobOutcome) :
    outcome.status ∈ ImportJobStatus.terminal := by
  cases outcome <;> decide

theorem status_not_active (outcome : JobOutcome) :
    outcome.status ∉ ImportJobStatus.active := by
  cases outcome <;> decide

theorem status_ne_pending (outcome : JobOutcome) :
    outcome.status ≠ .pending := by
  cases outcome <;> decide

end JobOutcome

/-- The choices a decision can carry. -/
inductive ImportAction where
  | apply
  | asis
  | skip
deriving Repr, DecidableEq

/-- One match candidate as it is shown to the UI. -/
structure ImportCandidate where
  index : Nat
  label : String
deriving Repr, DecidableEq

/-- Published when the importer needs a user choice for a task.  `serial`
counts the requests of one job; it is history only and no code reads it. -/
structure DecisionRequest where
  jobId : JobId
  taskId : String
  prompt : String
  candidates : List ImportCandidate
  allowedActions : List ImportAction
  serial : Nat
deriving Repr, DecidableEq

/-- The user's answer.  `viewed` is the serial of the request the client was
looking at when it chose the answer; it is history only and no code reads it.
-/
structure ImportDecision where
  action : ImportAction
  candidateIndex : Option Int
  viewed : Option Nat
deriving Repr, DecidableEq

/-- What a clean slate removes: an album, or a standalone track. -/
inductive CleanSlateSubject where
  | album
  | track
deriving Repr, DecidableEq

structure CleanSlateTarget where
  subject : CleanSlateSubject
  beetsId : Nat
deriving Repr, DecidableEq

/-- The target of a job's two id columns; exactly one of them must be set. -/
def CleanSlateTarget.fromIds : Option Nat → Option Nat →
    Except String CleanSlateTarget
  | some albumId, none => .ok ⟨.album, albumId⟩
  | none, some itemId => .ok ⟨.track, itemId⟩
  | _, _ => .error "Exactly one of album_id or item_id must be given."

/-- The dry run of a clean slate. -/
structure CleanSlatePreview where
  subject : CleanSlateSubject
  beetsId : Nat
  label : String
  itemCount : Nat
  filesPresent : Nat
  missingPaths : List String
  expectedTracks : Option Nat
  filesToDelete : List String
  filesKeptOutsideLibrary : List String
  artToDelete : Option String
  flexibleAttributesLost : List String
  fieldsPreserved : StrDict
  sourcePath : String
  sourceAudioFiles : Nat
  sourceAlbumGroups : Nat
  warnings : List String
  errors : List String
  needsConfirmation : Bool
deriving Repr, DecidableEq

/-- No blocking error and no outstanding confirmation. -/
def CleanSlatePreview.ok (preview : CleanSlatePreview) : Bool :=
  preview.errors.isEmpty && !preview.needsConfirmation

/-- The API-facing view of one import job. -/
structure ImportJob where
  id : JobId
  status : ImportJobStatus
  paths : List OsPath
  createdAt : Nat
  error : Option String
  pendingDecision : Option DecisionRequest
  decisionSubmitted : Bool
  output : Option String
  quiet : Bool
  logpath : Option String
  groupAlbums : Bool
  flat : Bool
  setFields : StrDict
  cleanSlateAlbumId : Option Nat
  cleanSlateItemId : Option Nat
  cleanSlateAllowFewerFiles : Bool
deriving Repr, DecidableEq

/-- Whether the job removes a library entry before importing its source. -/
def ImportJob.isCleanSlate (job : ImportJob) : Bool :=
  job.cleanSlateAlbumId.isSome || job.cleanSlateItemId.isSome

end Beetkeeper
