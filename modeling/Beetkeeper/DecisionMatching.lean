/-
Which request an answer was chosen for.  The store keeps one answer column for
all requests of a job and an answer does not name its request, so an answer
fits as long as it arrives while the request its client was looking at is
still the pending one.
-/
import Beetkeeper.FinalStatus

namespace Beetkeeper

open Transition

variable {W : Type}

/-- The job a worker may ask about, and how many requests it has published
for it. -/
def Phase.requests? : Phase → Option (JobId × Nat)
  | .claimed jobId => some (jobId, 0)
  | .running run => some (run.job.id, run.requests)
  | _ => none

theorem Phase.job?_of_requests? {phase : Phase} {jobId : JobId} {count : Nat}
    (hcount : phase.requests? = some (jobId, count)) :
    phase.job? = some jobId := by
  cases phase <;> cases hcount <;> rfl

/-- A worker's count is kept, raised by a request it publishes, or started by
its claim. -/
theorem WorkerMove.requests? {host : Host W} {system : System W}
    {worker : WorkerId} {action : Action W} {move : Move W}
    (hmove : WorkerMove host system worker action move) {jobId : JobId}
    {count : Nat} (hcount : move.phase.requests? = some (jobId, count)) :
    ((system.workers worker).phase.requests? = some (jobId, count) ∧
      ∀ statement, move.statement = .job statement →
        (∃ text, statement = .setOutput jobId text) ∨
          statement = .takeDecision jobId) ∨
    (∃ request before,
      (system.workers worker).phase.requests? = some (jobId, before) ∧
      move.statement = .job (.setAwaiting request) ∧
      request.jobId = jobId ∧ request.serial = count) ∨
    (count = 0 ∧ move.statement = .job (.claimSelected jobId worker) ∧
      system.store.affectedRows (claimSelected jobId worker) = 1) := by
  cases hmove with
  | loop hmove =>
      unfold System.loopMove at hmove
      split at hmove <;> rename_i hphase <;> try rw [hphase]
      all_goals repeat' split at hmove
      all_goals cases hmove
      all_goals cases hcount
      · exact Or.inr (Or.inr ⟨rfl, rfl, by assumption⟩)
      · rename_i hget
        obtain ⟨_, _, _, hid⟩ := ImportStore.get_eq_some hget
        rw [RunState.initial, hid]
        exact Or.inl ⟨rfl, by rintro _ ⟨⟩⟩
  | run hphase hmove =>
      rw [hphase]
      rcases runMove_cases hmove with
        ⟨next, _, _, hnext, hjob, rfl, rfl, hthread⟩ | ⟨_, _, hnext, _⟩
      · rw [hnext] at hcount
        simp only [Phase.requests?, hjob, Option.some.injEq, Prod.mk.injEq]
          at hcount
        obtain ⟨rfl, rfl⟩ := hcount
        generalize move.statement = statement at hthread ⊢
        generalize move.events = events at hthread
        generalize next.thread = thread at hthread
        generalize next.requests = requests at hthread ⊢
        cases hthread with
        | publish hthread =>
            exact Or.inr (Or.inl ⟨_, _, rfl, rfl, rfl, rfl⟩)
        | flush =>
            exact Or.inl
              ⟨rfl, fun _ h => Or.inl ⟨_, (Statement.job.inj h).symm⟩⟩
        | take _ _ =>
            exact Or.inl ⟨rfl, fun _ h => Or.inr (Statement.job.inj h).symm⟩
        | lose _ _ =>
            exact Or.inl ⟨rfl, fun _ h => Or.inr (Statement.job.inj h).symm⟩
        | _ => exact Or.inl ⟨rfl, by rintro _ ⟨⟩⟩
      · rw [hnext] at hcount
        cases hcount

/-- What a statement that does not name the row by id does to its decision
columns: it may clear the request, and record an answer where none was. -/
theorem onRow_decisions {statement : JobStatement} {row : ImportJobRecord}
    (hid : statement.byId ≠ some row.id) :
    ((statement.update.onRow row).pendingDecision = row.pendingDecision ∨
      (statement.update.onRow row).pendingDecision = none) ∧
    ((statement.update.onRow row).submittedDecision =
        row.submittedDecision ∨
      ∃ decision, statement = .submitDecision row.id decision ∧
        row.status = .awaitingDecision ∧ row.submittedDecision = none ∧
        (statement.update.onRow row).submittedDecision = some decision) := by
  unfold JobUpdate.onRow
  split
  · rename_i happlies
    have hnone := JobStatement.byId_eq_none happlies hid
    cases statement with
    | setStatus jobId outcome error => cases hnone
    | setOutput jobId output => cases hnone
    | setAwaiting request => cases hnone
    | takeDecision jobId => cases hnone
    | submitDecision jobId decision =>
        simp only [JobStatement.update, submitDecision, Bool.and_eq_true,
          decide_eq_true_eq, Option.isNone_iff_eq_none] at happlies
        obtain ⟨rfl, hawaiting, hfree⟩ := happlies
        exact ⟨Or.inl rfl, Or.inr ⟨decision, rfl, hawaiting, hfree, rfl⟩⟩
    | requestAbort jobId => exact ⟨Or.inl rfl, Or.inl rfl⟩
    | claimSelected jobId worker => exact ⟨Or.inl rfl, Or.inl rfl⟩
    | recoverOrphans worker => exact ⟨Or.inr rfl, Or.inl rfl⟩
  · exact ⟨Or.inl rfl, Or.inl rfl⟩

/-- A row that is PENDING after a statement was PENDING before it, with the
same decision columns. -/
theorem onRow_pending {statement : JobStatement} {row : ImportJobRecord}
    (hpending : (statement.update.onRow row).status = .pending) :
    row.status = .pending ∧
      (statement.update.onRow row).pendingDecision = row.pendingDecision ∧
      (statement.update.onRow row).submittedDecision =
        row.submittedDecision := by
  have hbefore : row.status = .pending := by
    by_contra hclaimed
    exact (onRow_claimed statement hclaimed).1 hpending
  refine ⟨hbefore, ?_⟩
  unfold JobUpdate.onRow at hpending ⊢
  split at hpending
  · rename_i happlies
    rw [if_pos happlies]
    cases statement with
    | setStatus jobId outcome error =>
        exact absurd hpending outcome.status_ne_pending
    | submitDecision jobId decision =>
        simp [JobStatement.update, submitDecision, hbefore] at happlies
    | setOutput jobId output => exact ⟨rfl, rfl⟩
    | requestAbort jobId => exact ⟨rfl, rfl⟩
    | setAwaiting request => cases hpending
    | takeDecision jobId => cases hpending
    | claimSelected jobId worker => cases hpending
    | recoverOrphans worker => cases hpending
  · rename_i happlies
    rw [if_neg happlies]
    exact ⟨rfl, rfl⟩

/-- A parked row carries its request. -/
def ImportJobRecord.parked (row : ImportJobRecord) : Prop :=
  row.status = .awaitingDecision → row.pendingDecision.isSome = true

theorem onRow_parked {statement : JobStatement} {row : ImportJobRecord}
    (hparked : row.parked) : (statement.update.onRow row).parked := by
  unfold JobUpdate.onRow
  split
  · cases statement with
    | setStatus jobId outcome error =>
        intro hawaiting
        cases outcome <;> cases hawaiting
    | setAwaiting request => exact fun _ => rfl
    | takeDecision jobId => exact nofun
    | claimSelected jobId worker => exact nofun
    | recoverOrphans worker => exact nofun
    | setOutput jobId output => exact hparked
    | submitDecision jobId decision => exact hparked
    | requestAbort jobId => exact hparked
  · exact hparked

/-- The row's request is the one with this serial, and so is the request its
answer was chosen for. -/
def ImportJobRecord.concerns (row : ImportJobRecord) (serial : Nat) : Prop :=
  (∀ request, row.pendingDecision = some request →
    request.serial = serial) ∧
  (∀ decision, row.submittedDecision = some decision →
    decision.viewed = some serial)

/-- The client posting a decision, for an action that is a post. -/
def Action.poster? : Action W → Option ClientId
  | .client (.post poster _ _) => some poster
  | _ => none

/-- A post either is refused or answers the request that is pending. -/
def System.answersPending (system : System W) (action : Action W) : Prop :=
  ∀ client ∈ action.poster?, ∀ view ∈ system.clients client,
    ∀ row ∈ system.store.job? view.jobId,
      row.status = .awaitingDecision → row.submittedDecision = none →
      row.pendingDecision.map DecisionRequest.serial = view.viewed

instance (system : System W) (action : Action W) :
    Decidable (system.answersPending action) := by
  delta System.answersPending
  infer_instance

/-- A PENDING row has neither a request nor an answer. -/
def ImportJobRecord.fresh (row : ImportJobRecord) : Prop :=
  row.status = .pending →
    row.pendingDecision = none ∧ row.submittedDecision = none

theorem onRow_fresh {statement : JobStatement} {row : ImportJobRecord}
    (hfresh : row.fresh) : (statement.update.onRow row).fresh := by
  intro hpending
  obtain ⟨hbefore, hrequest, hanswer⟩ := onRow_pending hpending
  rw [hrequest, hanswer]
  exact hfresh hbefore

/-- Every answer on its way to a request was chosen for it. -/
structure System.AnswersMatch (system : System W) : Prop where
  owned : system.Owned
  fresh : ∀ jobId row, system.store.job? jobId = some row → row.fresh
  parked : ∀ jobId row, system.store.job? jobId = some row → row.parked
  concerns : ∀ worker jobId count row,
    (system.workers worker).phase.requests? = some (jobId, count) →
    system.store.job? jobId = some row → row.concerns count
  taking : ∀ worker run decision,
    (system.workers worker).phase = .running run →
    run.thread = .taking decision →
    system.store.submittedDecision run.job.id = some decision
  taken : ∀ jobId decision serial,
    .taken jobId decision serial ∈ system.log →
    decision.viewed = some serial

theorem answersMatch_initial (world : W) :
    (System.initial world).AnswersMatch where
  owned := owned_initial world
  fresh := by
    intro jobId row hrow
    simp [System.initial] at hrow
  parked := by
    intro jobId row hrow
    simp [System.initial] at hrow
  concerns := by
    intro worker jobId count row hcount
    cases hcount
  taking := by
    intro worker run decision hphase
    cases hphase
  taken := by
    intro jobId decision serial hlog
    cases hlog

/-- A row that nobody names by id goes on concerning the same request. -/
theorem concerns_of_foreign {host : Host W} {system : System W}
    {action : Action W} {statement : JobStatement} {row : ImportJobRecord}
    {serial : Nat} (hsends : Sends host system action statement)
    (hok : system.answersPending action)
    (hrow : system.store.job? row.id = some row) (hparked : row.parked)
    (hconcerns : row.concerns serial) (hid : statement.byId ≠ some row.id) :
    (statement.update.onRow row).concerns serial := by
  obtain ⟨hrequest, hanswer⟩ := onRow_decisions hid
  refine ⟨fun request hpending => ?_, fun decision hsubmitted => ?_⟩
  · rcases hrequest with hsame | hnone
    · exact hconcerns.1 request (hsame.symm.trans hpending)
    · rw [hnone] at hpending
      cases hpending
  · rcases hanswer with hsame | ⟨posted, rfl, hawaiting, hfree, hstored⟩
    · exact hconcerns.2 decision (hsame.symm.trans hsubmitted)
    · obtain rfl := Option.some.inj (hstored.symm.trans hsubmitted)
      obtain ⟨request, hpending⟩ :=
        Option.isSome_iff_exists.mp (hparked hawaiting)
      obtain ⟨client, view, rfl, hview, hjob, hviewed⟩ := hsends.posted
      have hcurrent := hok client rfl view hview row (hjob ▸ hrow) hawaiting
        hfree
      rw [hpending, Option.map_some, hconcerns.1 request hpending] at hcurrent
      exact hviewed.symm.trans hcurrent.symm

/-- A row no worker's step names by id belongs to a worker that stands
still. -/
theorem byId_ne_of_standing {host : Host W} {system : System W}
    {action : Action W} {statement : JobStatement} {worker : WorkerId}
    {jobId : JobId} (howned : system.Owned)
    (hsends : Sends host system action statement)
    (hstands : action.worker? ≠ some worker)
    (hjob : (system.workers worker).phase.job? = some jobId) :
    statement.byId ≠ some jobId := by
  intro hid
  obtain ⟨mover, move, hmove, _, hholds⟩ := hsends.holds hid
  obtain rfl := one_worker_per_job howned hholds hjob
  exact hstands hmove.worker?

/-- Publishing a request makes the row concern it. -/
theorem concerns_of_published (request : DecisionRequest)
    (row : ImportJobRecord) (hid : row.id = request.jobId) :
    ((setAwaiting request).onRow row).concerns request.serial := by
  rw [setAwaiting_onRow hid]
  simp [ImportJobRecord.concerns]

/-- Consuming an answer leaves nothing to be concerned. -/
theorem concerns_of_taken {jobId : JobId} {row : ImportJobRecord}
    {serial : Nat} (hconcerns : row.concerns serial) :
    ((takeDecision jobId).onRow row).concerns serial := by
  unfold JobUpdate.onRow
  split
  · simp [takeDecision, ImportJobRecord.concerns]
  · exact hconcerns

theorem concerns_of_output {jobId : JobId} {text : String}
    {row : ImportJobRecord} {serial : Nat} (hconcerns : row.concerns serial) :
    ((setOutput jobId text).onRow row).concerns serial := by
  unfold JobUpdate.onRow
  split
  · exact hconcerns
  · exact hconcerns

theorem onRow_output (jobId : JobId) (text : String) (row : ImportJobRecord) :
    ((setOutput jobId text).onRow row).submittedDecision =
      row.submittedDecision := by
  unfold JobUpdate.onRow
  split <;> rfl

/-- The row a worker works on concerns the request it published last. -/
theorem concerns_step {host : Host W} {system next : System W}
    {action : Action W} (hmatch : system.AnswersMatch)
    (hok : system.answersPending action)
    (hstep : system.step host action = some next) {worker : WorkerId}
    {jobId : JobId} {count : Nat} {row : ImportJobRecord}
    (hcount : (next.workers worker).phase.requests? = some (jobId, count))
    (hrow : next.store.job? jobId = some row) : row.concerns count := by
  rcases step_workers hstep worker with
    ⟨hstands, hsame⟩ | ⟨move, hmove, rfl, hmoved⟩
  · rw [hsame] at hcount
    rcases step_job? hstep jobId with hkept | ⟨statement, hsends, hset⟩ |
      ⟨_, _, _, hcreated⟩
    · exact hmatch.concerns worker jobId count row hcount
        (hkept.symm.trans hrow)
    · obtain ⟨before, hbefore, rfl⟩ :=
        Option.map_eq_some_iff.mp (hset.symm.trans hrow)
      obtain rfl := ImportStore.job?_id hbefore
      exact concerns_of_foreign hsends hok hbefore
        (hmatch.parked _ before hbefore)
        (hmatch.concerns worker _ count before hcount hbefore)
        (byId_ne_of_standing hmatch.owned hsends hstands
          (Phase.job?_of_requests? hcount))
    · obtain rfl := Option.some.inj (hcreated.symm.trans hrow)
      exact ⟨nofun, nofun⟩
  · rw [hmoved] at hcount
    rcases hmove.requests? hcount with ⟨hbefore, hquiet⟩ |
      ⟨request, _, _, hstatement, rfl, rfl⟩ | ⟨rfl, hstatement, haffected⟩
    · by_cases hwrites : ∃ statement, move.statement = .job statement
      · obtain ⟨statement, hstatement⟩ := hwrites
        rw [apply_job?_statement hstatement] at hrow
        obtain ⟨old, hold, rfl⟩ := Option.map_eq_some_iff.mp hrow
        have hconcerns := hmatch.concerns worker jobId count old hbefore hold
        rcases hquiet statement hstatement with ⟨text, rfl⟩ | rfl
        · exact concerns_of_output hconcerns
        · exact concerns_of_taken hconcerns
      · rw [apply_job?_other (not_exists.mp hwrites)] at hrow
        exact hmatch.concerns worker jobId count row hbefore hrow
    · rw [apply_job?_statement hstatement] at hrow
      obtain ⟨old, hold, rfl⟩ := Option.map_eq_some_iff.mp hrow
      exact concerns_of_published request old (ImportStore.job?_id hold)
    · obtain ⟨old, hold, hpending, hafter⟩ := claimSelected_row haffected
      rw [System.apply, hstatement] at hrow
      obtain rfl := Option.some.inj (hafter.symm.trans hrow)
      obtain ⟨hrequest, hanswer⟩ := hmatch.fresh jobId old hold hpending
      exact ⟨by simp [hrequest], by simp [hanswer]⟩

/-- A worker about to consume an answer has just read it, or did so before
and has stood still in its thread since. -/
theorem WorkerMove.taking {host : Host W} {system : System W}
    {worker : WorkerId} {action : Action W} {move : Move W}
    (hmove : WorkerMove host system worker action move) {run : RunState}
    {decision : ImportDecision} (hphase : move.phase = .running run)
    (hthread : run.thread = .taking decision) :
    (∀ statement, move.statement = .job statement →
      ∃ jobId text, statement = .setOutput jobId text) ∧
    (system.store.submittedDecision run.job.id = some decision ∨
      ∃ before, (system.workers worker).phase = .running before ∧
        before.job = run.job ∧ before.thread = .taking decision) := by
  cases hmove with
  | loop hmove =>
      obtain ⟨_, _, _, rfl, _⟩ := loopMove_running hmove hphase
      cases hthread
  | run hbefore hmove =>
      rcases runMove_cases hmove with
        ⟨next, _, _, hnext, hjob, rfl, rfl, hstep⟩ | ⟨_, _, hnext, _⟩
      · obtain rfl := Phase.running.inj (hphase.symm.trans hnext)
        rw [hthread] at hstep
        generalize htaking : ImportThread.taking decision = thread at hstep
        generalize run.requests = requests at hstep
        generalize move.statement = statement at hstep ⊢
        generalize move.events = events at hstep
        rw [hjob]
        cases hstep with
        | aside => exact ⟨nofun, Or.inr ⟨_, hbefore, rfl, rfl⟩⟩
        | renew _ => exact ⟨nofun, Or.inr ⟨_, hbefore, rfl, rfl⟩⟩
        | flush =>
            refine ⟨fun _ h => ?_, Or.inr ⟨_, hbefore, rfl, rfl⟩⟩
            exact ⟨_, _, (Statement.job.inj h).symm⟩
        | found _ hstored =>
            obtain rfl := ImportThread.taking.inj htaking
            exact ⟨nofun, Or.inl hstored⟩
        | _ => cases htaking
      · rw [hnext] at hphase
        cases hphase

/-- An answer a worker has read stays stored until that worker takes it. -/
theorem taking_step {host : Host W} {system next : System W}
    {action : Action W} (hmatch : system.AnswersMatch)
    (hstep : system.step host action = some next) {worker : WorkerId}
    {run : RunState} {decision : ImportDecision}
    (hphase : (next.workers worker).phase = .running run)
    (hthread : run.thread = .taking decision) :
    next.store.submittedDecision run.job.id = some decision := by
  rcases step_workers hstep worker with
    ⟨hstands, hsame⟩ | ⟨move, hmove, rfl, hmoved⟩
  · rw [hsame] at hphase
    have hstored := hmatch.taking worker run decision hphase hthread
    obtain ⟨row, hrow, hanswer⟩ := Option.bind_eq_some_iff.mp hstored
    rcases step_job? hstep run.job.id with hkept | ⟨statement, hsends, hset⟩ |
      ⟨_, _, hnone, _⟩
    · rw [ImportStore.submittedDecision, hkept]
      exact hstored
    · rw [ImportStore.submittedDecision, hset, hrow]
      have hholds : (system.workers worker).phase.job? = some row.id := by
        rw [hphase, ImportStore.job?_id hrow]
        rfl
      have hid :=
        byId_ne_of_standing hmatch.owned hsends hstands hholds
      rcases (onRow_decisions hid).2 with hkept | ⟨_, _, _, hnone, _⟩
      · exact hkept.trans hanswer
      · rw [hanswer] at hnone
        cases hnone
    · rw [hrow] at hnone
      cases hnone
  · rw [hmoved] at hphase
    obtain ⟨hquiet, hread⟩ := hmove.taking hphase hthread
    have hstored : system.store.submittedDecision run.job.id =
        some decision := by
      rcases hread with hread | ⟨before, hbefore, hjob, htaking⟩
      · exact hread
      · rw [← hjob]
        exact hmatch.taking worker before decision hbefore htaking
    obtain ⟨row, hrow, hanswer⟩ := Option.bind_eq_some_iff.mp hstored
    by_cases hwrites : ∃ statement, move.statement = .job statement
    · obtain ⟨statement, hstatement⟩ := hwrites
      obtain ⟨jobId, text, rfl⟩ := hquiet statement hstatement
      rw [ImportStore.submittedDecision, apply_job?_statement hstatement, hrow]
      exact (onRow_output jobId text row).trans hanswer
    · rw [ImportStore.submittedDecision,
        apply_job?_other (not_exists.mp hwrites)]
      exact hstored

/-- A decision handed to a request is recorded as chosen for it. -/
theorem taken_step {host : Host W} {system next : System W}
    {action : Action W} (hmatch : system.AnswersMatch)
    (hstep : system.step host action = some next) {jobId : JobId}
    {decision : ImportDecision} {serial : Nat}
    (hlog : .taken jobId decision serial ∈ next.log) :
    decision.viewed = some serial := by
  rcases step_cases hstep with ⟨worker, move, hmove, rfl⟩ |
    ⟨request, rfl, hclient⟩ | ⟨_, rfl, rfl⟩ | ⟨_, rfl, rfl⟩
  · rcases List.mem_append.mp hlog with hold | hnew
    · exact hmatch.taken jobId decision serial hold
    · rcases hmove.events with hnone | ⟨_, _, hfailed⟩ |
        ⟨run, held, hphase, hthread, _, _, hone⟩
      · rw [hnone] at hnew
        cases hnew
      · rw [hfailed] at hnew
        simp at hnew
      · rw [hone, List.mem_singleton] at hnew
        obtain ⟨rfl, rfl, rfl⟩ := Event.taken.inj hnew
        have hstored := hmatch.taking worker run decision hphase hthread
        obtain ⟨row, hrow, hanswer⟩ := Option.bind_eq_some_iff.mp hstored
        exact (hmatch.concerns worker run.job.id run.requests row
          (by rw [hphase]; rfl) hrow).2 decision hanswer
  · rcases clientStep_log hclient with hsame | ⟨_, _, hone⟩ |
      ⟨_, _, _, _, _, hone⟩
    · exact hmatch.taken jobId decision serial (hsame ▸ hlog)
    · rw [hone] at hlog
      simp only [List.mem_append, List.mem_singleton, reduceCtorEq, or_false]
        at hlog
      exact hmatch.taken jobId decision serial hlog
    · rw [hone] at hlog
      simp only [List.mem_append, List.mem_singleton, reduceCtorEq, or_false]
        at hlog
      exact hmatch.taken jobId decision serial hlog
  · exact hmatch.taken jobId decision serial hlog
  · exact hmatch.taken jobId decision serial hlog

theorem answersMatch_step {host : Host W} {system next : System W}
    {action : Action W} (hmatch : system.AnswersMatch)
    (hok : system.answersPending action)
    (hstep : system.step host action = some next) : next.AnswersMatch where
  owned := owned_step hmatch.owned hstep
  fresh := step_rows (fun _ _ _ _ => ⟨rfl, rfl⟩)
    (fun _ _ hfresh => onRow_fresh hfresh) hstep hmatch.fresh
  parked := step_rows (fun _ _ _ => nofun)
    (fun _ _ hparked => onRow_parked hparked) hstep hmatch.parked
  concerns _ _ _ _ hcount hrow := concerns_step hmatch hok hstep hcount hrow
  taking _ _ _ hphase hthread := taking_step hmatch hstep hphase hthread
  taken _ _ _ hlog := taken_step hmatch hstep hlog

/-- In every run in which an answer is posted only while the request it was
chosen for is pending, whatever a request returns was chosen for it. -/
theorem returned_decision_was_chosen_for_request (host : Host W) (world : W)
    (actions : List (Action W))
    (hadmitted : Admitted (System.step host) System.answersPending
      (System.initial world) actions) (system : System W)
    (hrun : System.runFrom host world actions = some system) :
    ∀ jobId decision serial, .taken jobId decision serial ∈ system.log →
      decision.viewed = some serial :=
  (invariant_of_admitted
    (fun _ _ _ hmatch hok hstep => answersMatch_step hmatch hok hstep)
    (answersMatch_initial world) hadmitted hrun).taken

/-- A task is put to the user. -/
def askUser : List (Action Unit) :=
  [.run 0 (.choose "task" "Choose a match for this album." []),
    .run 0 .publish]

/-- The stored answer is read and consumed. -/
def takeAnswer : List (Action Unit) := [.run 0 .poll, .run 0 .take]

/-- Two tabs look at the first request; one answers it at once, the other
only after the second request was published. -/
def lateAnswer : List (Action Unit) :=
  claimAndStart 0 ++ askUser ++
    [.client (.view 1 7), .client (.view 2 7),
      .client (.post 1 .skip none)] ++
    takeAnswer ++ askUser ++ [.client (.post 2 .apply (some 1))] ++ takeAnswer

theorem late_answer_reaches_next_request :
    ∃ system, System.runFrom plainHost () lateAnswer = some system ∧
      .taken 7 ⟨.apply, some 1, some 1⟩ 2 ∈ system.log := by
  have hlog : (System.runFrom plainHost () lateAnswer).any (fun system =>
      decide (.taken 7 ⟨.apply, some 1, some 1⟩ 2 ∈ system.log)) = true := by
    decide
  obtain ⟨system, hrun, htaken⟩ := (Option.any_eq_true _ _).mp hlog
  exact ⟨system, hrun, of_decide_eq_true htaken⟩

/-- The same two tabs, the second one reloaded before it answers. -/
def freshAnswer : List (Action Unit) :=
  claimAndStart 0 ++ askUser ++
    [.client (.view 1 7), .client (.view 2 7),
      .client (.post 1 .skip none)] ++
    takeAnswer ++ askUser ++
    [.client (.view 2 7), .client (.post 2 .apply (some 1))] ++ takeAnswer

theorem fresh_answer_was_chosen_for_request :
    ∃ system, System.runFrom plainHost () freshAnswer = some system ∧
      .taken 7 ⟨.apply, some 1, some 2⟩ 2 ∈ system.log ∧
      ∀ jobId decision serial, .taken jobId decision serial ∈ system.log →
        decision.viewed = some serial := by
  have hlog : (System.runFrom plainHost () freshAnswer).any (fun system =>
      decide (.taken 7 ⟨.apply, some 1, some 2⟩ 2 ∈ system.log)) = true := by
    decide
  obtain ⟨system, hrun, htaken⟩ := (Option.any_eq_true _ _).mp hlog
  exact ⟨system, hrun, of_decide_eq_true htaken,
    returned_decision_was_chosen_for_request plainHost () freshAnswer
      (by decide) system hrun⟩

end Beetkeeper
