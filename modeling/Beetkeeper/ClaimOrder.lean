/-
The order in which jobs are claimed.  `claim_next` looks for the oldest PENDING
job in one statement and claims it in the next, and any process may do anything
in between; the jobs are claimed in the order of their submission all the same.
-/
import Beetkeeper.DecisionMatching
import Beetkeeper.StoreProcesses

namespace Beetkeeper

open Transition

/-- The job was submitted no later than the other. -/
def ImportStore.NoYounger (store : ImportStore) (jobId other : JobId) : Prop :=
  ∃ row later, store.job? jobId = some row ∧
    store.job? other = some later ∧ row.createdAt ≤ later.createdAt

/-- The job is as old as any that is PENDING. -/
def ImportStore.Oldest (store : ImportStore) (jobId : JobId) : Prop :=
  ∃ row, store.job? jobId = some row ∧ ∀ other later,
    store.job? other = some later → later.status = .pending →
    row.createdAt ≤ later.createdAt

theorem oldest_of_oldestPending {store : ImportStore} {jobId : JobId}
    (holdest : store.oldestPending jobId = true) : store.Oldest jobId := by
  cases hrow : store.job? jobId with
  | none => simp [ImportStore.oldestPending, hrow] at holdest
  | some row =>
      simp only [ImportStore.oldestPending, hrow, Option.any_some,
        Bool.and_eq_true, List.all_eq_true, decide_eq_true_eq] at holdest
      refine ⟨row, hrow, fun other later hlater => ?_⟩
      exact holdest.2 later (KeyedTable.get?_eq_some_iff.mp hlater).1

/-- No statement writes the age of a row. -/
theorem onRow_createdAt (statement : JobStatement) (row : ImportJobRecord) :
    (statement.update.onRow row).createdAt = row.createdAt := by
  unfold JobUpdate.onRow
  split
  · cases statement <;> rfl
  · rfl

/-- The time a new job is stamped with. -/
def StoreAction.stamp? : StoreAction → Option Nat
  | .create _ now _ => some now
  | _ => none

namespace StoreProcesses

/-- A new job is stamped with a time no earlier than the stamps in the
table. -/
def StampedInOrder (procs : StoreProcesses) (action : StoreAction) : Prop :=
  ∀ now ∈ action.stamp?, ∀ row ∈ procs.store.jobs.rows, row.createdAt ≤ now

instance (procs : StoreProcesses) (action : StoreAction) :
    Decidable (procs.StampedInOrder action) :=
  inferInstanceAs (Decidable (∀ now ∈ action.stamp?,
    ∀ row ∈ procs.store.jobs.rows, row.createdAt ≤ now))

/-- Where a row comes from: an older row of the same age, PENDING if this one
is, or its creation. -/
theorem step_row {before after : StoreProcesses} {action : StoreAction}
    (hstep : before.step action = some after) {jobId : JobId}
    {row : ImportJobRecord} (hrow : after.store.job? jobId = some row) :
    (∃ old, before.store.job? jobId = some old ∧
      row.createdAt = old.createdAt ∧
      (row.status = .pending → old.status = .pending)) ∨
    (∃ settings, action = .create jobId row.createdAt settings ∧
      before.store.job? jobId = none) := by
  have hstatement : ∀ statement : JobStatement,
      after.store.job? jobId =
        (before.store.job? jobId).map statement.update.onRow →
      ∃ old, before.store.job? jobId = some old ∧
        row.createdAt = old.createdAt ∧
        (row.status = .pending → old.status = .pending) := by
    intro statement hset
    obtain ⟨old, hold, rfl⟩ :=
      Option.map_eq_some_iff.mp (hset.symm.trans hrow)
    exact ⟨old, hold, onRow_createdAt statement old,
      fun hafter => (onRow_pending hafter).1⟩
  rcases step_job? hstep jobId with hsame | ⟨_, statement, _, _, hset⟩ |
    ⟨worker, chosen, _, _, hset⟩ | ⟨now, settings, rfl, hnone, hnew⟩
  · exact Or.inl ⟨row, hsame.symm.trans hrow, rfl, id⟩
  · exact Or.inl (hstatement statement hset)
  · exact Or.inl (hstatement (.claimSelected chosen worker) hset)
  · obtain rfl := Option.some.inj (hnew.symm.trans hrow)
    exact Or.inr ⟨settings, rfl, hnone⟩

/-- A row keeps its age. -/
theorem step_createdAt {before after : StoreProcesses} {action : StoreAction}
    (hstep : before.step action = some after) {jobId : JobId}
    {row : ImportJobRecord} (hrow : before.store.job? jobId = some row) :
    ∃ kept, after.store.job? jobId = some kept ∧
      kept.createdAt = row.createdAt := by
  rcases step_job? hstep jobId with hsame | ⟨_, statement, _, _, hset⟩ |
    ⟨worker, chosen, _, _, hset⟩ | ⟨_, _, _, hnone, _⟩
  · exact ⟨row, hsame.trans hrow, rfl⟩
  · rw [hrow] at hset
    exact ⟨_, hset, onRow_createdAt statement row⟩
  · rw [hrow] at hset
    exact ⟨_, hset, onRow_createdAt (.claimSelected chosen worker) row⟩
  · rw [hrow] at hnone
    cases hnone

/-- What is oldest stays so: rows only leave PENDING, and new ones are
younger. -/
theorem oldest_step {before after : StoreProcesses} {action : StoreAction}
    (hstamped : before.StampedInOrder action)
    (hstep : before.step action = some after) {jobId : JobId}
    (holdest : before.store.Oldest jobId) : after.store.Oldest jobId := by
  obtain ⟨row, hrow, hleast⟩ := holdest
  obtain ⟨kept, hkept, hage⟩ := step_createdAt hstep hrow
  refine ⟨kept, hkept, fun other later hlater hpending => ?_⟩
  rw [hage]
  rcases step_row hstep hlater with
    ⟨old, hold, hsame, hbefore⟩ | ⟨settings, rfl, _⟩
  · rw [hsame]
    exact hleast other old hold (hbefore hpending)
  · exact hstamped _ rfl row (KeyedTable.get?_eq_some_iff.mp hrow).1

theorem noYounger_step {before after : StoreProcesses} {action : StoreAction}
    (hstep : before.step action = some after) {jobId other : JobId}
    (hordered : before.store.NoYounger jobId other) :
    after.store.NoYounger jobId other := by
  obtain ⟨row, later, hrow, hlater, hle⟩ := hordered
  obtain ⟨kept, hkept, hage⟩ := step_createdAt hstep hrow
  obtain ⟨young, hyoung, hsame⟩ := step_createdAt hstep hlater
  exact ⟨kept, young, hkept, hyoung, by rw [hage, hsame]; exact hle⟩

/-- What a cleared candidate leaves was there before. -/
theorem selected_of_cleared {procs : StoreProcesses}
    {worker other : WorkerId} {jobId : JobId}
    (hselected : Function.update procs.selected other none worker =
      some jobId) : procs.selected worker = some jobId := by
  by_cases hsame : worker = other
  · subst hsame
    rw [Function.update_self] at hselected
    cases hselected
  · rwa [Function.update_of_ne hsame] at hselected

/-- A candidate was selected before or has just been seen to be the oldest. -/
theorem step_selected {before after : StoreProcesses} {action : StoreAction}
    (hstep : before.step action = some after) {worker : WorkerId}
    {jobId : JobId} (hselected : after.selected worker = some jobId) :
    before.selected worker = some jobId ∨
      before.store.oldestPending jobId = true := by
  cases action with
  | create created now settings =>
      simp only [step] at hstep
      split at hstep <;> cases hstep
      exact Or.inl hselected
  | select other chosen =>
      simp only [step] at hstep
      split at hstep <;> cases hstep
      rename_i hoffer
      by_cases hsame : worker = other
      · subst hsame
        simp only [Function.update_self, Option.some.injEq] at hselected
        exact Or.inr (hselected ▸ hoffer.2)
      · simp only [Function.update_of_ne hsame] at hselected
        exact Or.inl hselected
  | claim other =>
      obtain ⟨_, _, rfl⟩ := Option.map_eq_some_iff.mp hstep
      exact Or.inl (selected_of_cleared hselected)
  | abandon other =>
      cases hstep
      exact Or.inl (selected_of_cleared hselected)
  | issue process statement =>
      simp only [step] at hstep
      split at hstep <;> cases hstep
      exact Or.inl hselected
  | _ =>
      cases hstep
      exact Or.inl hselected

/-- The jobs claimed so far and those about to be, in order. -/
structure InOrder (procs : StoreProcesses) : Prop where
  selected : ∀ worker jobId, procs.selected worker = some jobId →
    procs.store.Oldest jobId
  claimed : ∀ claim ∈ procs.claims, procs.store.Oldest claim.1
  ordered : procs.claims.Pairwise fun earlier later =>
    procs.store.NoYounger earlier.1 later.1

theorem inOrder_initial : initial.InOrder where
  selected := nofun
  claimed := nofun
  ordered := .nil

theorem inOrder_step {before after : StoreProcesses} {action : StoreAction}
    (hbefore : before.InOrder) (hstamped : before.StampedInOrder action)
    (hstep : before.step action = some after) : after.InOrder := by
  have hkeeps : ∀ jobId, before.store.Oldest jobId →
      after.store.Oldest jobId := fun jobId =>
    oldest_step hstamped hstep
  have hselected : ∀ worker jobId, after.selected worker = some jobId →
      after.store.Oldest jobId := by
    intro worker jobId hchosen
    rcases step_selected hstep hchosen with hold | holdest
    · exact hkeeps jobId (hbefore.selected worker jobId hold)
    · exact hkeeps jobId (oldest_of_oldestPending holdest)
  rcases step_claims hstep with hsame | ⟨worker, jobId, rfl, hwon, happended⟩
  · refine ⟨hselected, ?_, ?_⟩
    · rw [hsame]
      exact fun claim hclaim => hkeeps claim.1 (hbefore.claimed claim hclaim)
    · rw [hsame]
      exact hbefore.ordered.imp fun hpair => noYounger_step hstep hpair
  · obtain ⟨hchosen, row, hrow, hpending⟩ := claimNext_eq_some_iff.mp hwon
    have holdest := hbefore.selected worker jobId hchosen
    refine ⟨hselected, ?_, ?_⟩
    · intro claim hclaim
      rw [happended, List.mem_append, List.mem_singleton] at hclaim
      rcases hclaim with hold | rfl
      · exact hkeeps claim.1 (hbefore.claimed claim hold)
      · exact hkeeps jobId holdest
    · rw [happended, List.pairwise_append]
      refine ⟨hbefore.ordered.imp fun hpair => noYounger_step hstep hpair,
        List.pairwise_singleton _ _, ?_⟩
      intro earlier hearlier claim hclaim
      obtain rfl := List.mem_singleton.mp hclaim
      -- the row was still PENDING, so no earlier claim is younger
      obtain ⟨first, hfirst, hleast⟩ := hbefore.claimed earlier hearlier
      exact noYounger_step hstep
        ⟨first, row, hfirst, hrow, hleast jobId row hrow hpending⟩

/-- However the statements of all processes interleave, the jobs are claimed
in the order in which they were submitted. -/
theorem claims_are_in_order (actions : List StoreAction)
    (hstamped : Admitted step StampedInOrder initial actions)
    (procs : StoreProcesses) (hexec : exec step initial actions = some procs) :
    procs.claims.Pairwise fun earlier later =>
      procs.store.NoYounger earlier.1 later.1 :=
  (invariant_of_admitted
    (fun _ _ _ hbefore hok hstep => inOrder_step hbefore hok hstep)
    inOrder_initial hstamped hexec).ordered

/-- Workers 0 and 1 both select job 7; worker 1 wins the race, and worker 0
claims job 8 after it. -/
def raceForOldest : List StoreAction :=
  [.create 7 0 (.ofPaths []), .create 8 1 (.ofPaths []), .select 0 7,
    .select 1 7, .claim 1, .claim 0, .select 0 8, .claim 0]

theorem race_is_claimed_in_order :
    ∃ procs, exec step initial raceForOldest = some procs ∧
      procs.claims = [(7, 1), (8, 0)] ∧
      procs.claims.Pairwise fun earlier later =>
        procs.store.NoYounger earlier.1 later.1 := by
  have hraced : (exec step initial raceForOldest).map claims =
      some [(7, 1), (8, 0)] := by
    decide
  obtain ⟨procs, hexec, hclaims⟩ := Option.map_eq_some_iff.mp hraced
  exact ⟨procs, hexec, hclaims,
    claims_are_in_order raceForOldest (by decide) procs hexec⟩

end StoreProcesses

end Beetkeeper
