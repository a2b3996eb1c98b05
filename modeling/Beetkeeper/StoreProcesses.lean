/-
The shared store under any number of processes, with no regard to where their
loops stand: each may issue any operation at any time, and `claim_next` is its
`SELECT` and, some time later, its conditional `UPDATE`.  What holds here holds
of the running system, whose every step is at most one of these.
-/
import Beetkeeper.JobOwnership

namespace Beetkeeper

open Transition

/-- The store, the candidate each worker's `claim_next` has selected, and the
claims that succeeded; the claims are history only. -/
structure StoreProcesses where
  store : ImportStore
  selected : WorkerId → Option JobId
  claims : List (JobId × WorkerId)

/-- An operation's statement on the job table other than the `UPDATE` of
`claim_next`, which is an action of its own, or one on the lock row. -/
inductive StoreAction where
  | create (jobId : JobId) (now : Nat) (settings : JobSettings)
  | select (worker : WorkerId) (jobId : JobId)
  | claim (worker : WorkerId)
  /-- the `UPDATE` raises, or the process dies before it -/
  | abandon (worker : WorkerId)
  | issue (process : WorkerId) (statement : JobStatement)
  | acquireLock (worker : WorkerId) (now lease : Nat)
  | ensureLockRow

def JobStatement.isClaim : JobStatement → Bool
  | .claimSelected _ _ => true
  | _ => false

namespace StoreProcesses

def initial : StoreProcesses where
  store := ImportStore.empty
  selected := fun _ => none
  claims := []

/-- What `claim_next` returns after its `UPDATE`: the selected job if the row
was still PENDING, else None. -/
def claimNext (procs : StoreProcesses) (worker : WorkerId) : Option JobId :=
  (procs.selected worker).filter fun jobId =>
    decide (procs.store.affectedRows (claimSelected jobId worker) = 1)

def step (procs : StoreProcesses) : StoreAction → Option StoreProcesses
  | .create jobId now settings =>
      match procs.store.create jobId now settings with
      | .ok (store, _) => some { procs with store := store }
      | .error _ => none
  | .select worker jobId =>
      if procs.selected worker = none ∧
          procs.store.oldestPending jobId = true then
        some { procs with
          selected := Function.update procs.selected worker (some jobId) }
      else none
  | .claim worker =>
      (procs.selected worker).map fun jobId =>
        { store := procs.store.execute (claimSelected jobId worker)
          selected := Function.update procs.selected worker none
          claims := procs.claims ++
            (procs.claimNext worker).toList.map fun won => (won, worker) }
  | .abandon worker =>
      some { procs with
        selected := Function.update procs.selected worker none }
  | .issue _ statement =>
      if statement.isClaim then none
      else some { procs with store := procs.store.execute statement.update }
  | .acquireLock worker now lease =>
      some { procs with
        store := (procs.store.acquireLock worker now lease).1 }
  | .ensureLockRow => some { procs with store := procs.store.ensureLockRow }

theorem claimNext_eq_some_iff {procs : StoreProcesses} {worker : WorkerId}
    {jobId : JobId} :
    procs.claimNext worker = some jobId ↔
      procs.selected worker = some jobId ∧
      ∃ row, procs.store.job? jobId = some row ∧ row.status = .pending := by
  rw [claimNext, Option.filter_eq_some_iff, decide_eq_true_eq,
    ImportStore.affectedRows_claimSelected]

/-- What a step does to one row: nothing, an operation's statement, a claim of
the selected job, or its creation. -/
theorem step_job? {before after : StoreProcesses} {action : StoreAction}
    (hstep : before.step action = some after) (jobId : JobId) :
    after.store.job? jobId = before.store.job? jobId ∨
    (∃ process statement, action = .issue process statement ∧
      statement.isClaim = false ∧ after.store.job? jobId =
        (before.store.job? jobId).map statement.update.onRow) ∨
    (∃ worker chosen, action = .claim worker ∧
      before.selected worker = some chosen ∧ after.store.job? jobId =
        (before.store.job? jobId).map
          (claimSelected chosen worker).onRow) ∨
    (∃ now settings, action = .create jobId now settings ∧
      before.store.job? jobId = none ∧
      after.store.job? jobId = some (settings.newRecord jobId now)) := by
  cases action with
  | create created now settings =>
      simp only [step] at hstep
      split at hstep
      · rename_i store view hcreate
        cases hstep
        have hrow := ImportStore.job?_create hcreate jobId
        by_cases hsame : created = jobId
        · subst hsame
          rw [if_pos rfl] at hrow
          exact Or.inr (Or.inr (Or.inr ⟨now, settings, rfl,
            ImportStore.create_fresh hcreate, hrow⟩))
        · rw [if_neg hsame] at hrow
          exact Or.inl hrow
      · cases hstep
  | select worker chosen =>
      simp only [step] at hstep
      split at hstep
      · cases hstep
        exact Or.inl rfl
      · cases hstep
  | claim worker =>
      obtain ⟨chosen, hchosen, rfl⟩ := Option.map_eq_some_iff.mp hstep
      exact Or.inr (Or.inr (Or.inl ⟨worker, chosen, rfl, hchosen,
        ImportStore.job?_execute _ _ _⟩))
  | abandon worker =>
      cases hstep
      exact Or.inl rfl
  | issue process statement =>
      simp only [step] at hstep
      split at hstep
      · cases hstep
      · rename_i hother
        cases hstep
        exact Or.inr (Or.inl ⟨process, statement, rfl,
          Bool.not_eq_true _ ▸ hother, ImportStore.job?_execute _ _ _⟩)
  | acquireLock worker now lease =>
      cases hstep
      exact Or.inl (ImportStore.job?_acquireLock _ _ _ _ _)
  | ensureLockRow =>
      cases hstep
      exact Or.inl rfl

/-- A step records the claim it wins, and nothing else. -/
theorem step_claims {before after : StoreProcesses} {action : StoreAction}
    (hstep : before.step action = some after) :
    after.claims = before.claims ∨
    ∃ worker jobId, action = .claim worker ∧
      before.claimNext worker = some jobId ∧
      after.claims = before.claims ++ [(jobId, worker)] := by
  cases action with
  | claim worker =>
      obtain ⟨chosen, _, rfl⟩ := Option.map_eq_some_iff.mp hstep
      cases hwon : before.claimNext worker with
      | none => exact Or.inl (by simp)
      | some jobId => exact Or.inr ⟨worker, jobId, rfl, hwon, by simp⟩
  | create jobId now settings =>
      simp only [step] at hstep
      split at hstep <;> cases hstep
      exact Or.inl rfl
  | select worker jobId =>
      simp only [step] at hstep
      split at hstep <;> cases hstep
      exact Or.inl rfl
  | issue process statement =>
      simp only [step] at hstep
      split at hstep <;> cases hstep
      exact Or.inl rfl
  | _ =>
      cases hstep
      exact Or.inl rfl

/-- A row keeps its place in the table, and once it is claimed it stays so. -/
theorem step_claimed {before after : StoreProcesses} {action : StoreAction}
    (hstep : before.step action = some after) {jobId : JobId}
    {row : ImportJobRecord} (hrow : before.store.job? jobId = some row)
    (hclaimed : row.status ≠ .pending) :
    ∃ kept, after.store.job? jobId = some kept ∧ kept.status ≠ .pending ∧
      kept.claimedBy = row.claimedBy := by
  rcases step_job? hstep jobId with hsame | ⟨_, statement, _, _, hset⟩ |
    ⟨worker, chosen, _, _, hset⟩ | ⟨_, _, _, hnone, _⟩
  · exact ⟨row, hsame.trans hrow, hclaimed, rfl⟩
  · rw [hrow] at hset
    exact ⟨_, hset, onRow_claimed statement hclaimed⟩
  · rw [hrow] at hset
    exact ⟨_, hset, onRow_claimed (.claimSelected chosen worker) hclaimed⟩
  · rw [hrow] at hnone
    cases hnone

/-- Only the `UPDATE` of `claim_next` writes the claimant. -/
theorem onRow_claimedBy {statement : JobStatement}
    (hother : statement.isClaim = false) (row : ImportJobRecord) :
    (statement.update.onRow row).claimedBy = row.claimedBy := by
  unfold JobUpdate.onRow
  split
  · cases statement with
    | claimSelected jobId worker => cases hother
    | _ => rfl
  · rfl

/-- A claim writes its worker into the row it selected, if it wins. -/
theorem claimSelected_claimedBy {jobId : JobId} {row : ImportJobRecord}
    (hid : row.id = jobId) (chosen : JobId) (worker : WorkerId) :
    ((claimSelected chosen worker).onRow row).claimedBy = row.claimedBy ∨
      (jobId = chosen ∧ row.status = .pending ∧
        ((claimSelected chosen worker).onRow row).claimedBy =
          some worker) := by
  by_cases hsame : row.id = chosen
  · rw [claimSelected_onRow hsame]
    split
    · rename_i hpending
      exact Or.inr ⟨hid.symm.trans hsame, hpending, rfl⟩
    · exact Or.inl rfl
  · exact Or.inl (by simp [JobUpdate.onRow, claimSelected, hsame])

/-- A claim that lost its race changes no row. -/
theorem claim_lost {before after : StoreProcesses} {worker : WorkerId}
    (hstep : before.step (.claim worker) = some after)
    (hlost : before.claimNext worker = none) :
    after.store = before.store := by
  obtain ⟨chosen, hchosen, rfl⟩ := Option.map_eq_some_iff.mp hstep
  rw [claimNext, hchosen, Option.filter_some, ite_eq_right_iff] at hlost
  have haffected : before.store.affectedRows (claimSelected chosen worker) =
      0 := by
    have hone : before.store.affectedRows (claimSelected chosen worker) ≠ 1 :=
      fun hwon => nomatch hlost (decide_eq_true hwon)
    simp only [ImportStore.affectedRows, claimSelected,
      KeyedTable.affected_key] at hone ⊢
    cases hany : (before.store.jobs.get? chosen).any fun row =>
      decide (row.status = .pending)
    · rfl
    · rw [hany] at hone
      exact absurd rfl hone
  simp only [ImportStore.execute]
  rw [KeyedTable.update_of_unaffected _ haffected]

/-- The claims are what the rows say of their claimants, no job among them
twice. -/
structure ClaimsOnce (procs : StoreProcesses) : Prop where
  once : (procs.claims.map Prod.fst).Nodup
  claimant : ∀ jobId row, procs.store.job? jobId = some row →
    ∀ worker, row.claimedBy = some worker ↔ (jobId, worker) ∈ procs.claims
  claimed : ∀ jobId worker, (jobId, worker) ∈ procs.claims →
    ∃ row, procs.store.job? jobId = some row ∧ row.status ≠ .pending ∧
      row.claimedBy = some worker

theorem claimsOnce_initial : initial.ClaimsOnce where
  once := List.nodup_nil
  claimant := by
    intro jobId row hrow
    cases hrow
  claimed := by
    intro jobId worker hclaim
    cases hclaim

/-- What a claim that wins leaves in the row. -/
theorem claimNext_row {before after : StoreProcesses} {worker : WorkerId}
    {jobId : JobId} (hstep : before.step (.claim worker) = some after)
    (hwon : before.claimNext worker = some jobId) :
    ∃ row, after.store.job? jobId = some row ∧ row.status = .running ∧
      row.claimedBy = some worker := by
  obtain ⟨chosen, hchosen, rfl⟩ := Option.map_eq_some_iff.mp hstep
  obtain ⟨hselected, row, hrow, hpending⟩ := claimNext_eq_some_iff.mp hwon
  obtain rfl := Option.some.inj (hchosen.symm.trans hselected)
  refine ⟨(claimSelected chosen worker).onRow row, ?_, ?_⟩
  · rw [ImportStore.job?_execute, hrow, Option.map_some]
  · rw [claimSelected_onRow (ImportStore.job?_id hrow), if_pos hpending]
    exact ⟨rfl, rfl⟩

/-- A job nobody has claimed is not among the claims. -/
theorem ClaimsOnce.unclaimed {procs : StoreProcesses}
    (hprocs : procs.ClaimsOnce) {jobId : JobId} {row : ImportJobRecord}
    (hrow : procs.store.job? jobId = some row)
    (hpending : row.status = .pending) (worker : WorkerId) :
    (jobId, worker) ∉ procs.claims := by
  intro hclaim
  obtain ⟨found, hfound, hclaimed, _⟩ := hprocs.claimed jobId worker hclaim
  obtain rfl := Option.some.inj (hrow.symm.trans hfound)
  exact hclaimed hpending

/-- A row names a claimant only if it did so before or a claim has just
won it. -/
theorem step_claimedBy {before after : StoreProcesses} {action : StoreAction}
    (hstep : before.step action = some after) {jobId : JobId}
    {row : ImportJobRecord} (hrow : after.store.job? jobId = some row) :
    (∃ old, before.store.job? jobId = some old ∧
      row.claimedBy = old.claimedBy) ∨
    (before.store.job? jobId = none ∧ row.claimedBy = none) ∨
    ∃ worker, action = .claim worker ∧
      before.claimNext worker = some jobId ∧
      row.claimedBy = some worker := by
  rcases step_job? hstep jobId with hsame | ⟨_, statement, _, hother, hset⟩ |
    ⟨worker, chosen, rfl, hchosen, hset⟩ | ⟨now, settings, _, hnone, hnew⟩
  · exact Or.inl ⟨row, hsame.symm.trans hrow, rfl⟩
  · obtain ⟨old, hold, rfl⟩ :=
      Option.map_eq_some_iff.mp (hset.symm.trans hrow)
    exact Or.inl ⟨old, hold, onRow_claimedBy hother old⟩
  · obtain ⟨old, hold, rfl⟩ :=
      Option.map_eq_some_iff.mp (hset.symm.trans hrow)
    rcases claimSelected_claimedBy (ImportStore.job?_id hold) chosen worker
      with hsame | ⟨rfl, hpending, hwon⟩
    · exact Or.inl ⟨old, hold, hsame⟩
    · exact Or.inr (Or.inr ⟨worker, rfl,
        claimNext_eq_some_iff.mpr ⟨hchosen, old, hold, hpending⟩, hwon⟩)
  · obtain rfl := Option.some.inj (hnew.symm.trans hrow)
    exact Or.inr (Or.inl ⟨hnone, rfl⟩)

section

variable {before after : StoreProcesses} {action : StoreAction}

/-- No claim is taken back. -/
theorem claimed_step (hbefore : before.ClaimsOnce)
    (hstep : before.step action = some after) {jobId : JobId}
    {worker : WorkerId} (hclaim : (jobId, worker) ∈ after.claims) :
    ∃ row, after.store.job? jobId = some row ∧ row.status ≠ .pending ∧
      row.claimedBy = some worker := by
  have hold : (jobId, worker) ∈ before.claims →
      ∃ row, after.store.job? jobId = some row ∧ row.status ≠ .pending ∧
        row.claimedBy = some worker := by
    intro hclaim
    obtain ⟨row, hrow, hclaimed, howner⟩ :=
      hbefore.claimed jobId worker hclaim
    obtain ⟨kept, hkept, hstill, hsame⟩ := step_claimed hstep hrow hclaimed
    exact ⟨kept, hkept, hstill, hsame.trans howner⟩
  rcases step_claims hstep with hsame | ⟨winner, won, rfl, hwon, hadded⟩
  · exact hold (hsame ▸ hclaim)
  · rw [hadded, List.mem_append, List.mem_singleton] at hclaim
    rcases hclaim with hclaim | hnew
    · exact hold hclaim
    · obtain ⟨rfl, rfl⟩ := Prod.mk.inj hnew
      obtain ⟨row, hrow, hrunning, howner⟩ := claimNext_row hstep hwon
      exact ⟨row, hrow, hrunning ▸ nofun, howner⟩

/-- A job that is claimed was PENDING, and so in no earlier claim. -/
theorem once_step (hbefore : before.ClaimsOnce)
    (hstep : before.step action = some after) :
    (after.claims.map Prod.fst).Nodup := by
  rcases step_claims hstep with hsame | ⟨winner, won, rfl, hwon, hadded⟩
  · rw [hsame]
    exact hbefore.once
  · obtain ⟨_, row, hrow, hpending⟩ := claimNext_eq_some_iff.mp hwon
    rw [hadded, List.map_append, List.nodup_append']
    refine ⟨hbefore.once, List.nodup_singleton _, ?_⟩
    intro jobId hearlier hnew
    obtain rfl := List.mem_singleton.mp hnew
    obtain ⟨⟨_, worker⟩, hclaim, rfl⟩ := List.mem_map.mp hearlier
    exact hbefore.unclaimed hrow hpending worker hclaim

/-- A row names a claimant only by a claim that is recorded. -/
theorem claimant_step (hbefore : before.ClaimsOnce)
    (hstep : before.step action = some after) {jobId : JobId}
    {row : ImportJobRecord} (hrow : after.store.job? jobId = some row)
    {worker : WorkerId} (howner : row.claimedBy = some worker) :
    (jobId, worker) ∈ after.claims := by
  rcases step_claimedBy hstep hrow with ⟨old, hold, hsame⟩ |
    ⟨_, hnobody⟩ | ⟨winner, rfl, hwon, hwinner⟩
  · have hclaim := (hbefore.claimant jobId old hold worker).mp
      (hsame.symm.trans howner)
    rcases step_claims hstep with heq | ⟨_, _, _, _, hadded⟩
    · rwa [heq]
    · rw [hadded]
      exact List.mem_append_left _ hclaim
  · rw [hnobody] at howner
    cases howner
  · obtain rfl := Option.some.inj (hwinner.symm.trans howner)
    obtain ⟨chosen, _, rfl⟩ := Option.map_eq_some_iff.mp hstep
    simp [hwon]

theorem claimsOnce_step (hbefore : before.ClaimsOnce)
    (hstep : before.step action = some after) : after.ClaimsOnce where
  once := once_step hbefore hstep
  claimant := by
    intro jobId row hrow worker
    constructor
    · intro howner
      exact claimant_step hbefore hstep hrow howner
    · intro hclaim
      obtain ⟨found, hfound, _, howner⟩ := claimed_step hbefore hstep hclaim
      obtain rfl := Option.some.inj (hrow.symm.trans hfound)
      exact howner
  claimed := fun _ _ hclaim => claimed_step hbefore hstep hclaim

end

/-- What one step does to the claims on a job: no row goes back to PENDING,
a claimant is written by the claim that wins the job and by nothing else, and
a claim that lost its race changes nothing. -/
structure ClaimKept (before : StoreProcesses) (action : StoreAction)
    (after : StoreProcesses) : Prop where
  rows : ∀ jobId row, before.store.job? jobId = some row →
    ∃ kept, after.store.job? jobId = some kept ∧
      (row.status ≠ .pending → kept.status ≠ .pending) ∧
      (∀ worker, row.claimedBy = some worker →
        kept.claimedBy = some worker) ∧
      (kept.claimedBy ≠ row.claimedBy → ∃ worker, action = .claim worker ∧
        before.claimNext worker = some jobId ∧
        kept.claimedBy = some worker)
  lost : ∀ worker, action = .claim worker →
    before.claimNext worker = none → after.store = before.store

/-- No step removes a row. -/
theorem step_kept {before after : StoreProcesses} {action : StoreAction}
    (hstep : before.step action = some after) {jobId : JobId}
    {row : ImportJobRecord} (hrow : before.store.job? jobId = some row) :
    ∃ kept, after.store.job? jobId = some kept := by
  rcases step_job? hstep jobId with hsame | ⟨_, _, _, _, hset⟩ |
    ⟨_, _, _, _, hset⟩ | ⟨_, _, _, hnone, _⟩
  · exact ⟨row, hsame.trans hrow⟩
  · exact ⟨_, hset.trans (congrArg _ hrow)⟩
  · exact ⟨_, hset.trans (congrArg _ hrow)⟩
  · rw [hrow] at hnone
    cases hnone

theorem claimKept_step {before after : StoreProcesses}
    {action : StoreAction} (hbefore : before.ClaimsOnce)
    (hstep : before.step action = some after) :
    ClaimKept before action after where
  rows := by
    intro jobId row hrow
    obtain ⟨kept, hkept⟩ := step_kept hstep hrow
    have hstays : row.status ≠ .pending →
        kept.status ≠ .pending ∧ kept.claimedBy = row.claimedBy := by
      intro hclaimed
      obtain ⟨same, hsame, hstill, howner⟩ := step_claimed hstep hrow hclaimed
      obtain rfl := Option.some.inj (hkept.symm.trans hsame)
      exact ⟨hstill, howner⟩
    refine ⟨kept, hkept, fun hclaimed => (hstays hclaimed).1, ?_, ?_⟩
    · intro worker howner
      have hclaim := (hbefore.claimant jobId row hrow worker).mp howner
      obtain ⟨found, hfound, hclaimed, _⟩ :=
        hbefore.claimed jobId worker hclaim
      obtain rfl := Option.some.inj (hrow.symm.trans hfound)
      exact (hstays hclaimed).2.trans howner
    · intro hchanged
      rcases step_claimedBy hstep hkept with ⟨old, hold, hsame⟩ |
        ⟨hnone, _⟩ | hwon
      · obtain rfl := Option.some.inj (hrow.symm.trans hold)
        exact absurd hsame hchanged
      · rw [hrow] at hnone
        cases hnone
      · exact hwon
  lost := by
    rintro worker rfl hlost
    exact claim_lost hstep hlost

/-- However the statements of all processes interleave: each job is claimed
by one successful `claim_next` at most, which sets its claimant for good. -/
theorem each_job_is_claimed_once (actions : List StoreAction) :
    EveryStep step ClaimKept initial actions ∧
    ∀ procs, exec step initial actions = some procs → procs.ClaimsOnce := by
  constructor
  · exact everyStep_of_admitted
      (fun _ _ _ hprocs _ hstep => claimsOnce_step hprocs hstep)
      (fun _ _ _ hprocs _ hstep => claimKept_step hprocs hstep)
      claimsOnce_initial (admitted_true initial actions)
  · intro procs hexec
    exact invariant_of_exec
      (fun _ _ _ hprocs hstep => claimsOnce_step hprocs hstep)
      claimsOnce_initial hexec

/-- Two workers select job 7; the first to update gets it, the other gets
None. -/
example :
    (exec step initial [.create 7 0 (.ofPaths []), .select 0 7, .select 1 7,
      .claim 1, .claim 0]).map claims = some [(7, 1)] := by
  decide

end StoreProcesses

end Beetkeeper
