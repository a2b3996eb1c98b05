/-
What becomes of accepted answers while one worker runs.  Every answer the
store accepted has been consumed by one `take_decision` or is still stored.
One is left behind only where the wait for it ended without an answer: the job
was asked to abort, or a database call of the bridge raised.
-/
import Beetkeeper.DecisionMatching

namespace Beetkeeper

open Transition

variable {W : Type}

/-- The decision of this job an event records as accepted. -/
def Event.accepted? (jobId : JobId) : Event → Option ImportDecision
  | .accepted answered decision =>
      if answered = jobId then some decision else none
  | _ => none

/-- The decision of this job an event records as taken. -/
def Event.taken? (jobId : JobId) : Event → Option ImportDecision
  | .taken answered decision _ =>
      if answered = jobId then some decision else none
  | _ => none

/-- The answers to a job's requests that the store accepted, in order. -/
def acceptedOf (log : List Event) (jobId : JobId) : List ImportDecision :=
  log.filterMap (Event.accepted? jobId)

/-- The answers `take_decision` returned for a job, in order. -/
def takenOf (log : List Event) (jobId : JobId) : List ImportDecision :=
  log.filterMap (Event.taken? jobId)

@[simp] theorem acceptedOf_append (first second : List Event)
    (jobId : JobId) :
    acceptedOf (first ++ second) jobId =
      acceptedOf first jobId ++ acceptedOf second jobId :=
  List.filterMap_append

@[simp] theorem takenOf_append (first second : List Event) (jobId : JobId) :
    takenOf (first ++ second) jobId =
      takenOf first jobId ++ takenOf second jobId :=
  List.filterMap_append

@[simp] theorem acceptedOf_singleton (event : Event) (jobId : JobId) :
    acceptedOf [event] jobId = (event.accepted? jobId).toList := by
  cases haccepted : event.accepted? jobId <;>
    simp [acceptedOf, haccepted]

@[simp] theorem takenOf_singleton (event : Event) (jobId : JobId) :
    takenOf [event] jobId = (event.taken? jobId).toList := by
  cases htaken : event.taken? jobId <;> simp [takenOf, htaken]

@[simp] theorem acceptedOf_nil (jobId : JobId) : acceptedOf [] jobId = [] :=
  rfl

@[simp] theorem takenOf_nil (jobId : JobId) : takenOf [] jobId = [] := rfl

/-- An abort of the job was accepted, or its bridge failed. -/
def excused (log : List Event) (jobId : JobId) : Prop :=
  (∃ status, .abortAccepted jobId status ∈ log) ∨ .bridgeFailed jobId ∈ log

theorem excused_append {log : List Event} {jobId : JobId}
    (hexcused : excused log jobId) (events : List Event) :
    excused (log ++ events) jobId := by
  rcases hexcused with ⟨status, habort⟩ | hfailed
  · exact Or.inl ⟨status, List.mem_append_left _ habort⟩
  · exact Or.inr (List.mem_append_left _ hfailed)

/-- How far a worker is with the decision of its job. -/
inductive Stage where
  /-- no request is out -/
  | working
  /-- back in beets' pipeline after a request, or before the first one -/
  | resumed
  | waiting
  | holding (decision : ImportDecision)
  /-- the session is over -/
  | leaving
deriving Repr, DecidableEq

def ImportThread.stage : ImportThread → Stage
  | .starting => .working
  | .importing => .resumed
  | .publishing _ _ _ => .working
  | .polling => .waiting
  | .checking => .waiting
  | .taking decision => .holding decision
  | .ended _ => .leaving

def Phase.stage? : Phase → Option (JobId × Stage)
  | .claimed jobId => some (jobId, .working)
  | .running run => some (run.job.id, run.thread.stage)
  | .concluding jobId _ _ => some (jobId, .leaving)
  | .finalizing jobId _ _ _ _ _ => some (jobId, .leaving)
  | _ => none

theorem Phase.job?_of_stage? {phase : Phase} {jobId : JobId} {stage : Stage}
    (hstage : phase.stage? = some (jobId, stage)) :
    phase.job? = some jobId := by
  cases phase <;> cases hstage <;> rfl

/-- RUNNING, and no answer stored. -/
def ImportJobRecord.idle (row : ImportJobRecord) : Prop :=
  row.status = .running ∧ row.submittedDecision = none

/-- What the row of a job looks like at a stage of its worker. -/
def ImportJobRecord.fits (row : ImportJobRecord) (log : List Event) :
    Stage → Prop
  | .working => row.idle
  | .resumed => row.idle ∨ row.abortRequested = true
  | .waiting => row.status = .awaitingDecision
  | .holding decision => row.status = .awaitingDecision ∧
      row.submittedDecision = some decision
  | .leaving => row.idle ∨ excused log row.id

/-- The books of one job: what was accepted is what was taken and what is
stored, and an answer stays stored only where the row still awaits one. -/
structure RowBalanced (worker : WorkerId) (log : List Event)
    (stage? : Option (JobId × Stage)) (row : ImportJobRecord) : Prop where
  fresh : row.fresh
  claimant : ∀ owner, row.claimedBy = some owner → owner = worker
  flagged : row.abortRequested = true → excused log row.id
  ledger : acceptedOf log row.id =
    takenOf log row.id ++ row.submittedDecision.toList
  settled : row.submittedDecision = none ∨
    row.status = .awaitingDecision ∨ excused log row.id
  fits : ∀ stage, stage? = some (row.id, stage) → row.fits log stage

/-- One worker runs, and the books of every job balance. -/
structure System.Balanced (worker : WorkerId) (system : System W) :
    Prop where
  alone : system.Alone worker
  owned : system.Owned
  unknown : ∀ jobId, system.store.job? jobId = none →
    acceptedOf system.log jobId = [] ∧ takenOf system.log jobId = []
  rows : ∀ jobId row, system.store.job? jobId = some row →
    RowBalanced worker system.log (system.workers worker).phase.stage? row

theorem balanced_initial (worker : WorkerId) (world : W) :
    (System.initial world).Balanced worker where
  alone := alone_initial worker world
  owned := owned_initial world
  unknown := fun _ _ => ⟨rfl, rfl⟩
  rows := by
    intro jobId row hrow
    simp [System.initial] at hrow

theorem fits_append {row : ImportJobRecord} {log : List Event} {stage : Stage}
    (hfits : row.fits log stage) (events : List Event) :
    row.fits (log ++ events) stage := by
  cases stage with
  | leaving => exact hfits.imp_right fun h => excused_append h events
  | working => exact hfits
  | resumed => exact hfits
  | waiting => exact hfits
  | holding decision => exact hfits

section

variable {worker : WorkerId} {log : List Event}
  {stage? : Option (JobId × Stage)} {row : ImportJobRecord}

/-- Books that balance go on doing so through whatever adds no answer and
consumes none. -/
theorem rowBalanced_moved (hbalanced : RowBalanced worker log stage? row)
    {events : List Event} {after? : Option (JobId × Stage)}
    (haccepted : acceptedOf events row.id = [])
    (htaken : takenOf events row.id = [])
    (hstage : ∀ stage, after? = some (row.id, stage) →
      row.fits (log ++ events) stage) :
    RowBalanced worker (log ++ events) after? row where
  fresh := hbalanced.fresh
  claimant := hbalanced.claimant
  flagged hflag := excused_append (hbalanced.flagged hflag) events
  ledger := by
    rw [acceptedOf_append, takenOf_append, haccepted, htaken]
    simpa using hbalanced.ledger
  settled := hbalanced.settled.imp_right
    (Or.imp_right fun h => excused_append h events)
  fits := hstage

/-- A row that a step does not touch. -/
theorem rowBalanced_untouched (hbalanced : RowBalanced worker log stage? row)
    {events : List Event} (haccepted : acceptedOf events row.id = [])
    (htaken : takenOf events row.id = []) :
    RowBalanced worker (log ++ events) stage? row :=
  rowBalanced_moved hbalanced haccepted htaken fun stage hstage =>
    fits_append (hbalanced.fits stage hstage) events

theorem awaiting_not_idle (hawaiting : row.status = .awaitingDecision) :
    ¬ row.idle := by
  intro hidle
  rw [hidle.1] at hawaiting
  cases hawaiting

/-- An accepted answer enters the books on both sides. -/
theorem rowBalanced_accepted (hbalanced : RowBalanced worker log stage? row)
    (hawaiting : row.status = .awaitingDecision)
    (hnone : row.submittedDecision = none) (decision : ImportDecision) :
    RowBalanced worker (log ++ [.accepted row.id decision]) stage?
      { row with submittedDecision := some decision } := by
  have hidle := awaiting_not_idle hawaiting
  constructor
  · intro hpending
    rw [hawaiting] at hpending
    cases hpending
  · exact hbalanced.claimant
  · exact fun hflag => excused_append (hbalanced.flagged hflag) _
  · have hledger := hbalanced.ledger
    rw [hnone] at hledger
    rw [acceptedOf_append, takenOf_append]
    simp [hledger, Event.accepted?, Event.taken?]
  · exact Or.inr (Or.inl hawaiting)
  · intro stage hstage
    have hfits := hbalanced.fits stage hstage
    cases stage with
    | working => exact absurd hfits hidle
    | resumed => exact Or.inr (hfits.resolve_left hidle)
    | waiting => exact hfits
    | holding held =>
        have hstored : row.submittedDecision = some held := hfits.2
        rw [hnone] at hstored
        cases hstored
    | leaving => exact Or.inr (excused_append (hfits.resolve_left hidle) _)

/-- An accepted abort is on record before anybody can read the flag. -/
theorem rowBalanced_aborted (hbalanced : RowBalanced worker log stage? row)
    (status : ImportJobStatus) :
    RowBalanced worker (log ++ [.abortAccepted row.id status]) stage?
      { row with abortRequested := true } := by
  have hexcused : excused (log ++ [.abortAccepted row.id status]) row.id :=
    Or.inl ⟨status, by simp⟩
  constructor
  · exact hbalanced.fresh
  · exact hbalanced.claimant
  · exact fun _ => hexcused
  · rw [acceptedOf_append, takenOf_append]
    simpa [Event.accepted?, Event.taken?] using hbalanced.ledger
  · exact Or.inr (Or.inr hexcused)
  · intro stage hstage
    have hfits := hbalanced.fits stage hstage
    cases stage with
    | working => exact hfits
    | resumed => exact Or.inr rfl
    | waiting => exact hfits
    | holding held => exact hfits
    | leaving => exact Or.inr hexcused

/-- A new job has an empty ledger. -/
theorem rowBalanced_created {id : JobId} (settings : JobSettings) (now : Nat)
    (hstage : ∀ stage, stage? ≠ some (id, stage))
    (haccepted : acceptedOf log id = []) (htaken : takenOf log id = []) :
    RowBalanced worker log stage? (settings.newRecord id now) where
  fresh := fun _ => ⟨rfl, rfl⟩
  claimant := nofun
  flagged := nofun
  ledger := by
    rw [JobSettings.newRecord, haccepted, htaken]
    rfl
  settled := Or.inl rfl
  fits stage hthere := absurd hthere (hstage stage)

/-- A claim leaves the books alone; the worker starts with an idle row. -/
theorem rowBalanced_claimed (hbalanced : RowBalanced worker log stage? row)
    (hpending : row.status = .pending) :
    RowBalanced worker log (some (row.id, .working))
      { row with status := .running, claimedBy := some worker } := by
  obtain ⟨_, hnone⟩ := hbalanced.fresh hpending
  constructor
  · exact nofun
  · intro owner howner
    exact (Option.some.inj howner).symm
  · exact hbalanced.flagged
  · exact hbalanced.ledger
  · exact Or.inl hnone
  · intro stage hstage
    obtain ⟨_, rfl⟩ := Prod.mk.inj (Option.some.inj hstage)
    exact ⟨rfl, hnone⟩

/-- The terminal write: an answer is left stored only if it is excused. -/
theorem rowBalanced_ended (hbalanced : RowBalanced worker log stage? row)
    (hleaving : stage? = some (row.id, .leaving)) (outcome : JobOutcome)
    (error : Option String) :
    RowBalanced worker log none
      { row with
        status := outcome.status, pendingDecision := none,
        error := error } := by
  constructor
  · intro hpending
    exact absurd hpending outcome.status_ne_pending
  · exact hbalanced.claimant
  · exact hbalanced.flagged
  · exact hbalanced.ledger
  · rcases hbalanced.fits .leaving hleaving with hidle | hexcused
    · exact Or.inl hidle.2
    · exact Or.inr (Or.inr hexcused)
  · exact nofun

/-- Publishing clears a column that was empty. -/
theorem rowBalanced_published
    (hbalanced : RowBalanced worker log (some (row.id, .working)) row)
    (request : DecisionRequest) :
    RowBalanced worker log (some (row.id, .waiting))
      { row with
        status := .awaitingDecision, pendingDecision := some request,
        submittedDecision := none } := by
  have hidle : row.idle := hbalanced.fits .working rfl
  constructor
  · exact nofun
  · exact hbalanced.claimant
  · exact hbalanced.flagged
  · have hledger := hbalanced.ledger
    rw [hidle.2] at hledger
    exact hledger
  · exact Or.inl rfl
  · intro stage hstage
    obtain ⟨_, rfl⟩ := Prod.mk.inj (Option.some.inj hstage)
    rfl

/-- A take moves the stored answer from one side of the books to the other.
-/
theorem rowBalanced_taken {decision : ImportDecision}
    (hbalanced : RowBalanced worker log (some (row.id, .holding decision)) row)
    (serial : Nat) :
    RowBalanced worker (log ++ [.taken row.id decision serial])
      (some (row.id, .resumed))
      { row with
        submittedDecision := none, pendingDecision := none,
        status := .running } := by
  obtain ⟨_, hstored⟩ := hbalanced.fits (.holding decision) rfl
  constructor
  · exact nofun
  · exact hbalanced.claimant
  · exact fun hflag => excused_append (hbalanced.flagged hflag) _
  · have hledger := hbalanced.ledger
    rw [hstored] at hledger
    rw [acceptedOf_append, takenOf_append]
    simp [hledger, Event.accepted?, Event.taken?]
  · exact Or.inl rfl
  · intro stage hstage
    obtain ⟨_, rfl⟩ := Prod.mk.inj (Option.some.inj hstage)
    exact Or.inl ⟨rfl, rfl⟩

theorem rowBalanced_output (hbalanced : RowBalanced worker log stage? row)
    (jobId : JobId) (text : String) :
    RowBalanced worker log stage? ((setOutput jobId text).onRow row) := by
  unfold JobUpdate.onRow
  split
  · exact ⟨hbalanced.fresh, hbalanced.claimant, hbalanced.flagged,
      hbalanced.ledger, hbalanced.settled, hbalanced.fits⟩
  · exact hbalanced

/-- Only the worker moves on, to a stage its row fits as well. -/
theorem rowBalanced_stage {before after : Stage}
    (hbalanced : RowBalanced worker log (some (row.id, before)) row)
    (hfits : row.fits log before → row.fits log after) :
    RowBalanced worker log (some (row.id, after)) row where
  fresh := hbalanced.fresh
  claimant := hbalanced.claimant
  flagged := hbalanced.flagged
  ledger := hbalanced.ledger
  settled := hbalanced.settled
  fits stage hstage := by
    obtain ⟨_, rfl⟩ := Prod.mk.inj (Option.some.inj hstage)
    exact hfits (hbalanced.fits before rfl)

end

/-- The import thread keeps the books of its job. -/
theorem rowBalanced_thread {system : System W} {run : RunState}
    {action : RunAction} {thread : ImportThread} {requests : Nat}
    {statement : Statement} {events : List Event} {worker : WorkerId}
    {log : List Event} {row : ImportJobRecord}
    (hstep : ThreadStep system run action thread requests statement events)
    (hrow : system.store.job? run.job.id = some row)
    (hbalanced : RowBalanced worker log (some (row.id, run.thread.stage)) row) :
    RowBalanced worker (log ++ events) (some (row.id, thread.stage))
      (statement.onRow row) := by
  have hid := ImportStore.job?_id hrow
  cases hstep with
  | aside =>
      rw [List.append_nil]
      exact hbalanced
  | renew _ =>
      rw [List.append_nil]
      exact hbalanced
  | flush =>
      rw [List.append_nil]
      exact rowBalanced_output hbalanced _ _
  | start hthread =>
      rw [hthread] at hbalanced
      rw [List.append_nil]
      exact rowBalanced_stage hbalanced Or.inl
  | choose hthread habort =>
      rw [hthread] at hbalanced
      rw [List.append_nil]
      refine rowBalanced_stage hbalanced fun hresumed => ?_
      rcases hresumed with hidle | hflag
      · exact hidle
      · simp [ImportStore.isAbortRequested, hrow, hflag] at habort
  | publish hthread =>
      rw [hthread] at hbalanced
      rw [List.append_nil]
      rw [Statement.onRow, JobStatement.update, setAwaiting_onRow hid]
      exact rowBalanced_published hbalanced _
  | found hthread hstored =>
      rw [hthread] at hbalanced
      rw [List.append_nil]
      refine rowBalanced_stage hbalanced fun hwaiting => ⟨hwaiting, ?_⟩
      simpa [ImportStore.submittedDecision, hrow] using hstored
  | notFound hthread =>
      rw [hthread] at hbalanced
      rw [List.append_nil]
      exact hbalanced
  | take hthread haffected =>
      rw [hthread] at hbalanced
      obtain ⟨_, hstored⟩ := hbalanced.fits (.holding _) rfl
      have hsome : row.submittedDecision.isSome = true := by simp [hstored]
      rw [Statement.onRow, JobStatement.update, takeDecision_onRow hid hsome,
        ← hid]
      exact rowBalanced_taken hbalanced _
  | lose hthread haffected =>
      rw [hthread] at hbalanced
      obtain ⟨_, hstored⟩ := hbalanced.fits (.holding _) rfl
      exact absurd (ImportStore.affectedRows_takeDecision.mpr
        ⟨row, hrow, by simp [hstored]⟩) haffected
  | giveUp hthread habort =>
      rw [hthread] at hbalanced
      rw [List.append_nil]
      refine rowBalanced_stage hbalanced fun _ => Or.inr ?_
      simpa [ImportStore.isAbortRequested, hrow] using habort
  | again hthread =>
      rw [hthread] at hbalanced
      rw [List.append_nil]
      exact hbalanced
  | finish hthread =>
      rw [List.append_nil]
      rcases hthread with hthread | hthread
      · rw [hthread] at hbalanced
        exact rowBalanced_stage hbalanced Or.inl
      · rw [hthread] at hbalanced
        exact rowBalanced_stage hbalanced (Or.imp_right hbalanced.flagged)
  | fault =>
      refine rowBalanced_moved hbalanced rfl rfl fun stage hstage => ?_
      obtain ⟨_, rfl⟩ := Prod.mk.inj (Option.some.inj hstage)
      exact Or.inr (Or.inr (by simp [hid]))

/-- A statement of the only worker about another job changes nothing. -/
theorem Issues.onRow_foreign {worker : WorkerId} {phase : Phase}
    {statement : JobStatement} {row : ImportJobRecord}
    (hissues : Issues worker phase statement)
    (hforeign : phase.job? ≠ some row.id)
    (hclaimant : ∀ owner, row.claimedBy = some owner → owner = worker)
    (hclaims : statement ≠ .claimSelected row.id worker) :
    statement.update.onRow row = row := by
  refine if_neg ?_
  cases hissues with
  | recover =>
      simp only [JobStatement.update, recoverOrphans, Bool.and_eq_true,
        not_and, Bool.not_eq_true]
      intro _
      cases howner : row.claimedBy with
      | none => rfl
      | some owner => simp [hclaimant owner howner]
  | claim jobId =>
      have hne : row.id ≠ jobId := fun h => hclaims (by rw [h])
      simp [JobStatement.update, claimSelected, hne]
  | flush run text =>
      have hne : row.id ≠ run.job.id := fun h => hforeign (congrArg some h.symm)
      simp [JobStatement.update, setOutput, hne]
  | publish run taskId prompt candidates _ =>
      have hne : row.id ≠ run.job.id := fun h => hforeign (congrArg some h.symm)
      simp [JobStatement.update, setAwaiting, buildDecisionRequest, hne]
  | take run decision _ =>
      have hne : row.id ≠ run.job.id := fun h => hforeign (congrArg some h.symm)
      simp [JobStatement.update, takeDecision, hne]
  | writeOutput jobId output outcome error attempt =>
      have hne : row.id ≠ jobId := fun h => hforeign (congrArg some h.symm)
      simp [JobStatement.update, setOutput, hne]
  | writeStatus jobId output outcome error attempt =>
      have hne : row.id ≠ jobId := fun h => hforeign (congrArg some h.symm)
      simp [JobStatement.update, setStatus, hne]

/-- Outside a running job a worker that has a job only passes on what it
knows, writes the output, or writes the outcome and lets the job go. -/
theorem loopMove_stage {system : System W} {worker : WorkerId}
    {action : LoopAction} {move : Move W} {jobId : JobId}
    (hmove : system.loopMove worker action = some move)
    (hjob : (system.workers worker).phase.job? = some jobId) :
    (move.phase.stage? = none ∨
      move.phase.stage? = (system.workers worker).phase.stage?) ∧
    (move.statement = .read ∨
      (∃ text, move.statement = .job (.setOutput jobId text)) ∨
      (move.phase.stage? = none ∧
        (system.workers worker).phase.stage? = some (jobId, .leaving) ∧
        ∃ outcome error,
          move.statement = .job (.setStatus jobId outcome error))) := by
  unfold System.loopMove at hmove
  split at hmove <;> rename_i hphase <;> try rw [hphase] at hjob ⊢
  all_goals repeat' split at hmove
  all_goals cases hmove
  all_goals first
    | exact ⟨Or.inl rfl, Or.inl rfl⟩
    | cases hjob
  all_goals first
    | exact ⟨Or.inr rfl, Or.inl rfl⟩
    | exact ⟨Or.inr rfl, Or.inr (Or.inl ⟨_, rfl⟩)⟩
    | exact ⟨Or.inl rfl, Or.inr (Or.inr ⟨rfl, rfl, _, _, rfl⟩)⟩
    | skip
  -- what is left is the row `claim_next` reads back
  rename_i hget
  obtain ⟨_, _, _, hid⟩ := ImportStore.get_eq_some hget
  exact ⟨Or.inr (congrArg (fun held => some (held, Stage.working)) hid),
    Or.inl rfl⟩

/-- What the only worker does to the row of the job it holds. -/
theorem rowBalanced_own {host : Host W} {system : System W}
    {worker : WorkerId} {action : Action W} {move : Move W}
    {row : ImportJobRecord}
    (hmove : WorkerMove host system worker action move)
    (hrow : system.store.job? row.id = some row)
    (hown : (system.workers worker).phase.job? = some row.id)
    (hbalanced : RowBalanced worker system.log
      (system.workers worker).phase.stage? row) :
    RowBalanced worker (system.log ++ move.events) move.phase.stage?
      (move.statement.onRow row) := by
  cases hmove with
  | loop hmove =>
      obtain ⟨hstage, hstatement⟩ := loopMove_stage hmove hown
      have hmoved : RowBalanced worker system.log move.phase.stage? row := by
        rcases hstage with hnone | hsame
        · rw [hnone]
          exact ⟨hbalanced.fresh, hbalanced.claimant, hbalanced.flagged,
            hbalanced.ledger, hbalanced.settled, nofun⟩
        · rw [hsame]
          exact hbalanced
      rw [(loopMove_frame hmove).2, List.append_nil]
      rcases hstatement with hread | ⟨text, houtput⟩ |
        ⟨hnone, hleaving, outcome, error, hend⟩
      · rw [hread]
        exact hmoved
      · rw [houtput]
        exact rowBalanced_output hmoved _ _
      · rw [hend, hnone]
        have hafter : (setStatus row.id outcome.status error).onRow row =
            { row with
              status := outcome.status, pendingDecision := none,
              error := error.or row.error } :=
          if_pos (decide_eq_true rfl)
        rw [Statement.onRow, JobStatement.update, hafter]
        exact rowBalanced_ended hbalanced hleaving outcome _
  | @run _ run _ hphase hmove =>
      rw [hphase] at hown hbalanced
      have hid : run.job.id = row.id := Option.some.inj hown
      rcases runMove_cases hmove with
        ⟨next, _, _, hnext, hjob, rfl, rfl, hthread⟩ |
        ⟨failure, hended, hnext, hread, hevents⟩
      · rw [hnext, Phase.stage?, hjob, hid]
        rw [Phase.stage?, hid] at hbalanced
        exact rowBalanced_thread hthread (hid ▸ hrow) hbalanced
      · rw [Phase.stage?, hended, hid] at hbalanced
        rw [hnext, hread, hevents, List.append_nil, hid]
        exact hbalanced

/-- What a worker's step records about a job it does not hold. -/
theorem WorkerMove.events_foreign {host : Host W} {system : System W}
    {worker : WorkerId} {action : Action W} {move : Move W} {jobId : JobId}
    (hmove : WorkerMove host system worker action move)
    (hforeign : (system.workers worker).phase.job? ≠ some jobId) :
    acceptedOf move.events jobId = [] ∧ takenOf move.events jobId = [] := by
  rcases hmove.events with hnone | ⟨_, _, hfailed⟩ |
    ⟨run, _, hphase, _, _, _, htaken⟩
  · rw [hnone]
    exact ⟨rfl, rfl⟩
  · rw [hfailed]
    exact ⟨rfl, rfl⟩
  · have hne : run.job.id ≠ jobId := fun hsame =>
      hforeign (by rw [hphase, Phase.job?, hsame])
    rw [htaken]
    simp [Event.accepted?, Event.taken?, hne]

/-- What the only worker does to the row of a job it does not hold. -/
theorem rowBalanced_foreign {host : Host W} {system : System W}
    {worker : WorkerId} {action : Action W} {move : Move W}
    {row : ImportJobRecord}
    (hmove : WorkerMove host system worker action move)
    (hrow : system.store.job? row.id = some row)
    (hforeign : (system.workers worker).phase.job? ≠ some row.id)
    (hbalanced : RowBalanced worker system.log
      (system.workers worker).phase.stage? row) :
    RowBalanced worker (system.log ++ move.events) move.phase.stage?
      (move.statement.onRow row) := by
  by_cases hclaims : move.statement = .job (.claimSelected row.id worker)
  · cases hmove with
    | run hphase hmove => cases runMove_issues hmove hclaims
    | loop hmove =>
        have haffected : system.store.affectedRows
            (claimSelected row.id worker) = 1 ↔ row.status = .pending :=
          ImportStore.affectedRows_claimSelected.trans
            (ImportStore.exists_job?_iff hrow)
        rw [(loopMove_frame hmove).2, List.append_nil, hclaims,
          Statement.onRow, JobStatement.update, claimSelected_onRow rfl]
        rcases loopMove_claim hmove hclaims with
          ⟨hwon, hphase⟩ | ⟨hlost, hphase⟩
        · have hpending := haffected.mp hwon
          rw [if_pos hpending, hphase]
          exact rowBalanced_claimed hbalanced hpending
        · rw [if_neg fun hpending => hlost (haffected.mpr hpending), hphase]
          exact ⟨hbalanced.fresh, hbalanced.claimant, hbalanced.flagged,
            hbalanced.ledger, hbalanced.settled, by rintro _ ⟨⟩⟩
  · have hafter : move.statement.onRow row = row := by
      cases hstatement : move.statement with
      | job statement =>
          refine (hmove.issues hstatement).onRow_foreign hforeign
            hbalanced.claimant fun hsame => hclaims ?_
          rw [hstatement, hsame]
      | _ => rfl
    obtain ⟨haccepted, htaken⟩ := hmove.events_foreign hforeign
    rw [hafter]
    refine rowBalanced_moved hbalanced haccepted htaken fun stage hstage => ?_
    rcases hmove.job? (Phase.job?_of_stage? hstage) with hheld | ⟨hclaim, _⟩
    · exact absurd hheld hforeign
    · exact absurd hclaim hclaims

/-- A posted decision, seen from the row it is posted for. -/
theorem rowBalanced_submit {system : System W} {worker : WorkerId}
    {row : ImportJobRecord} {jobId : JobId} (decision : ImportDecision)
    (hrow : system.store.job? row.id = some row)
    (hbalanced : RowBalanced worker system.log
      (system.workers worker).phase.stage? row) :
    RowBalanced worker (system.submit jobId decision).log
      (system.workers worker).phase.stage?
      ((submitDecision jobId decision).onRow row) := by
  by_cases hid : row.id = jobId
  · subst hid
    have haffected : system.store.affectedRows
        (submitDecision row.id decision) = 1 ↔
        row.status = .awaitingDecision ∧ row.submittedDecision = none :=
      ImportStore.affectedRows_submitDecision.trans
        (ImportStore.exists_job?_iff hrow)
    rw [submitDecision_onRow rfl, System.submit]
    by_cases hopen :
        row.status = .awaitingDecision ∧ row.submittedDecision = none
    · rw [if_pos hopen]
      simp only [if_pos (haffected.mpr hopen)]
      exact rowBalanced_accepted hbalanced hopen.1 hopen.2 decision
    · rw [if_neg hopen]
      simp only [if_neg fun h => hopen (haffected.mp h)]
      exact hbalanced
  · have hafter : (submitDecision jobId decision).onRow row = row := by
      simp [JobUpdate.onRow, submitDecision, hid]
    rw [hafter, System.submit]
    split
    · refine rowBalanced_untouched hbalanced ?_ rfl
      rw [acceptedOf_singleton, Event.accepted?, if_neg (Ne.symm hid)]
      rfl
    · exact hbalanced

/-- An abort request, seen from one row. -/
theorem rowBalanced_abort {store : ImportStore} {worker : WorkerId}
    {log : List Event} {stage? : Option (JobId × Stage)}
    {row named : ImportJobRecord} {jobId : JobId}
    (hrow : store.job? row.id = some row)
    (hnamed : store.job? jobId = some named)
    (hbalanced : RowBalanced worker log stage? row) :
    RowBalanced worker
      (if store.affectedRows (requestAbort jobId) = 1 then
        log ++ [.abortAccepted jobId named.status] else log) stage?
      ((requestAbort jobId).onRow row) := by
  by_cases hid : row.id = jobId
  · subst hid
    have haffected := ImportStore.affectedRows_requestAbort.trans
      (ImportStore.exists_job?_iff hrow)
    rw [requestAbort_onRow rfl]
    by_cases habortable : row.status ∈ ImportJobStatus.abortable
    · rw [if_pos habortable, if_pos (haffected.mpr habortable)]
      exact rowBalanced_aborted hbalanced named.status
    · rw [if_neg habortable, if_neg fun h => habortable (haffected.mp h)]
      exact hbalanced
  · have hafter : (requestAbort jobId).onRow row = row := by
      simp [JobUpdate.onRow, requestAbort, hid]
    rw [hafter]
    split
    · exact rowBalanced_untouched hbalanced rfl rfl
    · exact hbalanced

theorem balanced_rows_client {system next : System W} {worker : WorkerId}
    {request : ClientAction} (hbalanced : system.Balanced worker)
    (hclient : system.clientStep request = some next) :
    ∀ jobId row, next.store.job? jobId = some row →
      RowBalanced worker next.log (next.workers worker).phase.stage? row := by
  intro jobId row hrow
  cases request with
  | create created settings =>
      simp only [System.clientStep] at hclient
      split at hclient
      · rename_i store view hcreate
        cases hclient
        have hafter := ImportStore.job?_create hcreate jobId
        rw [show store.job? jobId = some row from hrow] at hafter
        by_cases hsame : created = jobId
        · subst hsame
          rw [if_pos rfl] at hafter
          obtain rfl := Option.some.inj hafter
          have hnone := ImportStore.create_fresh hcreate
          obtain ⟨haccepted, htaken⟩ := hbalanced.unknown created hnone
          refine rowBalanced_created settings system.clock ?_ haccepted htaken
          intro stage hstage
          obtain ⟨held, hheld, _⟩ := hbalanced.owned worker created
            (Phase.job?_of_stage? hstage)
          rw [hnone] at hheld
          cases hheld
        · rw [if_neg hsame] at hafter
          exact hbalanced.rows jobId row hafter.symm
      · cases hclient
  | view client viewed =>
      obtain ⟨_, _, rfl⟩ := Option.map_eq_some_iff.mp hclient
      exact hbalanced.rows jobId row hrow
  | post client choice index =>
      obtain ⟨view, hview, rfl⟩ := Option.map_eq_some_iff.mp hclient
      rw [System.submit, ImportStore.job?_execute] at hrow
      obtain ⟨before, hbefore, rfl⟩ := Option.map_eq_some_iff.mp hrow
      obtain rfl := ImportStore.job?_id hbefore
      exact rowBalanced_submit _ hbefore (hbalanced.rows _ before hbefore)
  | abort aborted =>
      obtain ⟨named, hnamed, rfl⟩ := Option.map_eq_some_iff.mp hclient
      rw [ImportStore.job?_execute] at hrow
      obtain ⟨before, hbefore, rfl⟩ := Option.map_eq_some_iff.mp hrow
      obtain rfl := ImportStore.job?_id hbefore
      exact rowBalanced_abort hbefore hnamed
        (hbalanced.rows _ before hbefore)

/-- The log has nothing on a job that does not exist. -/
theorem balanced_unknown_client {system next : System W} {worker : WorkerId}
    {request : ClientAction} (hbalanced : system.Balanced worker)
    (hclient : system.clientStep request = some next) {jobId : JobId}
    (hnone : system.store.job? jobId = none) :
    acceptedOf next.log jobId = [] ∧ takenOf next.log jobId = [] := by
  obtain ⟨haccepted, htaken⟩ := hbalanced.unknown jobId hnone
  cases request with
  | create created settings =>
      simp only [System.clientStep] at hclient
      split at hclient
      · cases hclient
        exact ⟨haccepted, htaken⟩
      · cases hclient
  | view client viewed =>
      obtain ⟨_, _, rfl⟩ := Option.map_eq_some_iff.mp hclient
      exact ⟨haccepted, htaken⟩
  | post client choice index =>
      obtain ⟨view, hview, rfl⟩ := Option.map_eq_some_iff.mp hclient
      simp only [System.submit]
      split
      · rename_i haffected
        obtain ⟨row, hrow, _⟩ :=
          ImportStore.affectedRows_submitDecision.mp haffected
        have hne : view.jobId ≠ jobId := by
          rintro rfl
          rw [hnone] at hrow
          cases hrow
        rw [acceptedOf_append, takenOf_append, haccepted, htaken]
        simp [Event.accepted?, Event.taken?, hne]
      · exact ⟨haccepted, htaken⟩
  | abort aborted =>
      obtain ⟨named, hnamed, rfl⟩ := Option.map_eq_some_iff.mp hclient
      simp only
      split
      · rw [acceptedOf_append, takenOf_append, haccepted, htaken]
        exact ⟨rfl, rfl⟩
      · exact ⟨haccepted, htaken⟩

theorem job?_none_of_step {host : Host W} {system next : System W}
    {action : Action W} (hstep : system.step host action = some next)
    {jobId : JobId} (hnone : next.store.job? jobId = none) :
    system.store.job? jobId = none := by
  rcases step_job? hstep jobId with hsame | ⟨statement, _, hset⟩ |
    ⟨_, _, hbefore, _⟩
  · exact hsame.symm.trans hnone
  · exact Option.map_eq_none_iff.mp (hset.symm.trans hnone)
  · exact hbefore

theorem balanced_step {host : Host W} {system next : System W}
    {action : Action W} {worker : WorkerId}
    (hbalanced : system.Balanced worker) (honly : action.onlyOf worker)
    (hstep : system.step host action = some next) :
    next.Balanced worker := by
  have halone := alone_step hbalanced.alone honly hstep
  have howned := owned_step hbalanced.owned hstep
  have hgone : ∀ jobId, next.store.job? jobId = none →
      system.store.job? jobId = none := fun _ => job?_none_of_step hstep
  rcases step_cases hstep with ⟨mover, move, hmove, rfl⟩ |
    ⟨request, rfl, hclient⟩ | ⟨_, rfl, rfl⟩ | ⟨_, rfl, rfl⟩
  · obtain rfl := onlyOf_eq honly hmove.worker?
    refine ⟨halone, howned, fun jobId hnone => ?_, fun jobId row hrow => ?_⟩
    · obtain ⟨haccepted, htaken⟩ :=
        hbalanced.unknown jobId (hgone jobId hnone)
      have hforeign : (system.workers mover).phase.job? ≠ some jobId := by
        intro hheld
        obtain ⟨row, hrow, _⟩ := hbalanced.owned mover jobId hheld
        rw [hgone jobId hnone] at hrow
        cases hrow
      obtain ⟨hnew, hnewTaken⟩ := hmove.events_foreign hforeign
      rw [System.apply, acceptedOf_append, takenOf_append, haccepted, htaken]
      exact ⟨hnew, hnewTaken⟩
    · rw [apply_job?] at hrow
      obtain ⟨before, hbefore, rfl⟩ := Option.map_eq_some_iff.mp hrow
      obtain rfl := ImportStore.job?_id hbefore
      have hrows := hbalanced.rows _ before hbefore
      simp only [System.apply, Function.update_self]
      by_cases hown : (system.workers mover).phase.job? = some before.id
      · exact rowBalanced_own hmove hbefore hown hrows
      · exact rowBalanced_foreign hmove hbefore hown hrows
  · exact ⟨halone, howned, fun jobId hnone =>
      balanced_unknown_client hbalanced hclient (hgone jobId hnone),
      balanced_rows_client hbalanced hclient⟩
  · exact ⟨halone, howned, hbalanced.unknown, hbalanced.rows⟩
  · exact ⟨halone, howned, hbalanced.unknown, hbalanced.rows⟩

theorem balanced_of_run {host : Host W} {world : W} {worker : WorkerId}
    {actions : List (Action W)}
    (honly : ∀ action ∈ actions, action.onlyOf worker) {system : System W}
    (hrun : System.runFrom host world actions = some system) :
    system.Balanced worker := by
  have hadmitted : Admitted (System.step host)
      (fun _ action => action.onlyOf worker) (System.initial world) actions :=
    admitted_of_forall _ honly
  exact invariant_of_admitted
    (fun _ _ _ hbalanced hok hstep => balanced_step hbalanced hok hstep)
    (balanced_initial worker world) hadmitted hrun

/-- While one worker runs: once a job has ended, every accepted answer was
returned by one `take_decision`, in order, except for at most the last one of
a job that was asked to abort or whose bridge failed; and an answer is stored
only for a job that awaits it, again unless it was asked to abort or its
bridge failed. -/
theorem accepted_decisions_are_taken (host : Host W) (world : W)
    (worker : WorkerId) (actions : List (Action W))
    (honly : ∀ action ∈ actions, action.onlyOf worker) (system : System W)
    (hrun : System.runFrom host world actions = some system) (jobId : JobId)
    (row : ImportJobRecord) (hrow : system.store.job? jobId = some row) :
    (row.status ∈ ImportJobStatus.terminal →
      takenOf system.log jobId = acceptedOf system.log jobId ∨
      (excused system.log jobId ∧ ∃ decision,
        acceptedOf system.log jobId =
          takenOf system.log jobId ++ [decision])) ∧
    (row.submittedDecision ≠ none →
      row.status = .awaitingDecision ∨ excused system.log jobId) := by
  obtain rfl := ImportStore.job?_id hrow
  have hbooks := (balanced_of_run honly hrun).rows row.id row hrow
  refine ⟨fun hended => ?_, fun hstored =>
    hbooks.settled.resolve_left hstored⟩
  have hledger := hbooks.ledger
  cases hanswer : row.submittedDecision with
  | none =>
      rw [hanswer] at hledger
      exact Or.inl (by simpa using hledger.symm)
  | some decision =>
      rw [hanswer] at hledger
      rcases hbooks.settled with hnone | hawaiting | hexcused
      · rw [hanswer] at hnone
        cases hnone
      · rw [hawaiting] at hended
        simp [ImportJobStatus.terminal] at hended
      · exact Or.inr ⟨hexcused, decision, hledger⟩

/-- The answer arrives after the poll that found none, the abort before the
flag is read. -/
def answerThenAbort : List (Action Unit) :=
  claimAndStart 0 ++ askUser ++
    [.run 0 .poll, .client (.view 1 7), .client (.post 1 .asis none),
      .client (.abort 7), .run 0 .checkAbort] ++
    endAndConclude 0 ++ [.loop 0 .writeStatus]

/-- The aborted job ends with an accepted answer nobody took, still stored. -/
theorem aborted_job_drops_accepted_decision :
    ∃ system, System.runFrom plainHost () answerThenAbort = some system ∧
      (∃ row, system.store.job? 7 = some row ∧ row.status = .aborted ∧
        row.submittedDecision = some ⟨.asis, none, some 1⟩) ∧
      acceptedOf system.log 7 = [⟨.asis, none, some 1⟩] ∧
      takenOf system.log 7 = [] := by
  have hends : (System.runFrom plainHost () answerThenAbort).map (fun system =>
      ((system.store.job? 7).map fun row =>
          (row.status, row.submittedDecision),
        acceptedOf system.log 7, takenOf system.log 7)) =
      some (some (.aborted, some ⟨.asis, none, some 1⟩),
        [⟨.asis, none, some 1⟩], []) := by
    decide
  obtain ⟨system, hrun, hend⟩ := Option.map_eq_some_iff.mp hends
  obtain ⟨hjob, hlog⟩ := Prod.mk.inj hend
  obtain ⟨row, hrow, hcolumns⟩ := Option.map_eq_some_iff.mp hjob
  obtain ⟨hstatus, hstored⟩ := Prod.mk.inj hcolumns
  obtain ⟨haccepted, htaken⟩ := Prod.mk.inj hlog
  exact ⟨system, hrun, ⟨row, hrow, hstatus, hstored⟩, haccepted, htaken⟩

/-- Two answers, each to its request, and the job completes. -/
def answeredTwice : List (Action Unit) :=
  freshAnswer ++ endAndConclude 0 ++ [.loop 0 .writeStatus]

theorem accepted_decisions_are_taken_twice :
    ∃ system row, System.runFrom plainHost () answeredTwice = some system ∧
      system.store.job? 7 = some row ∧
      row.status ∈ ImportJobStatus.terminal ∧
      (acceptedOf system.log 7).length = 2 ∧
      (takenOf system.log 7 = acceptedOf system.log 7 ∨
        (excused system.log 7 ∧ ∃ decision,
          acceptedOf system.log 7 = takenOf system.log 7 ++ [decision])) := by
  have hends : (System.runFrom plainHost () answeredTwice).map (fun system =>
      ((system.store.job? 7).map ImportJobRecord.status,
        (acceptedOf system.log 7).length)) = some (some .completed, 2) := by
    decide
  obtain ⟨system, hrun, hend⟩ := Option.map_eq_some_iff.mp hends
  obtain ⟨hjob, hlength⟩ := Prod.mk.inj hend
  obtain ⟨row, hrow, hstatus⟩ := Option.map_eq_some_iff.mp hjob
  have hended : row.status ∈ ImportJobStatus.terminal := by
    rw [hstatus]
    decide
  exact ⟨system, row, hrun, hrow, hended, hlength,
    (accepted_decisions_are_taken plainHost () 0 answeredTwice (by decide)
      system hrun 7 row hrow).1 hended⟩

end Beetkeeper
