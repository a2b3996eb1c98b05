/-
The listing of the import jobs, newest first and page by page, while the
processes go on submitting and running jobs.
-/
import Mathlib.Data.List.Sort
import Beetkeeper.Paging
import Beetkeeper.ClaimOrder

namespace Beetkeeper

open Transition Paging

/-- The query parameters of a page. -/
structure PageQueryParams where
  page : Nat
  pageSize : Nat
  page_pos : 1 ≤ page
  pageSize_pos : 1 ≤ pageSize
  pageSize_le : pageSize ≤ 100

/-- `PageQueryParamsModel.slice`. -/
def PageQueryParams.slice {A : Type} (params : PageQueryParams)
    (items : List A) : List A :=
  Paging.page params.pageSize params.page items

/-- The rows in an order the `SELECT` of `list` may return them in: the oldest
first, rows of one age in any order. -/
structure ImportStore.Lists (store : ImportStore)
    (records : List ImportJobRecord) : Prop where
  rows : records.Perm store.jobs.rows
  sorted : records.Pairwise fun row other => row.createdAt ≤ other.createdAt

/-- A listing; rows of one age come in the order of their commits. -/
def ImportStore.byAge (store : ImportStore) : List ImportJobRecord :=
  store.jobs.rows.insertionSort
    (Order.Preimage ImportJobRecord.createdAt (· ≤ ·))

theorem ImportStore.lists_byAge (store : ImportStore) :
    store.Lists store.byAge where
  rows := List.perm_insertionSort _ _
  sorted := List.pairwise_insertionSort
    (Order.Preimage ImportJobRecord.createdAt (· ≤ ·)) _

/-- `ImportStore.list`. -/
def jobViews (records : List ImportJobRecord) : List ImportJob :=
  records.map ImportJobRecord.toView

/-- `list_imports`. -/
def listImports (params : PageQueryParams) (jobs : List ImportJob) :
    List ImportJob :=
  params.slice jobs.reverse

namespace StoreProcesses

/-- Every new job is stamped with a time that is not in the table yet. -/
def StampedApart (procs : StoreProcesses) (action : StoreAction) : Prop :=
  ∀ now ∈ action.stamp?, ∀ row ∈ procs.store.jobs.rows, row.createdAt ≠ now

instance (procs : StoreProcesses) (action : StoreAction) :
    Decidable (procs.StampedApart action) :=
  inferInstanceAs (Decidable (∀ now ∈ action.stamp?,
    ∀ row ∈ procs.store.jobs.rows, row.createdAt ≠ now))

/-- What no statement writes. -/
def stamps (procs : StoreProcesses) : List (JobId × Nat) :=
  procs.store.jobs.rows.map fun row => (row.id, row.createdAt)

theorem stamps_execute (store : ImportStore) (statement : JobStatement) :
    ((store.execute statement.update).jobs.rows.map fun row =>
      (row.id, row.createdAt)) =
      store.jobs.rows.map fun row => (row.id, row.createdAt) := by
  rw [ImportStore.execute, KeyedTable.update, List.map_map]
  apply List.map_congr_left
  intro row _
  have hid : (statement.update.onRow row).id = row.id := by
    unfold JobUpdate.onRow
    split
    · exact statement.update.keepsId row
    · rfl
  exact Prod.ext hid (onRow_createdAt statement row)

/-- A step leaves the stamps alone or adds one at the end. -/
theorem step_stamps {before after : StoreProcesses} {action : StoreAction}
    (hstep : before.step action = some after) :
    after.stamps = before.stamps ∨
      ∃ jobId now, action.stamp? = some now ∧
        after.stamps = before.stamps ++ [(jobId, now)] := by
  cases action with
  | create jobId now settings =>
      right
      simp only [step] at hstep
      split at hstep
      · rename_i store view hcreate
        cases hstep
        have hinsert := (ImportStore.create_eq_ok hcreate).1
        have hrows := (KeyedTable.insert?_eq_some_iff.mp hinsert).2
        refine ⟨jobId, now, rfl, ?_⟩
        rw [stamps, hrows, List.map_append]
        rfl
      · cases hstep
  | select worker jobId =>
      left
      simp only [step] at hstep
      split at hstep
      · cases hstep
        rfl
      · cases hstep
  | claim worker =>
      left
      obtain ⟨chosen, _, rfl⟩ := Option.map_eq_some_iff.mp hstep
      exact stamps_execute before.store (.claimSelected chosen worker)
  | abandon worker =>
      cases hstep
      exact .inl rfl
  | issue process statement =>
      left
      simp only [step] at hstep
      split at hstep
      · cases hstep
      · cases hstep
        exact stamps_execute before.store statement
  | acquireLock worker now lease =>
      left
      cases hstep
      rw [stamps, ImportStore.jobs_acquireLock]
      rfl
  | ensureLockRow =>
      cases hstep
      exact .inl rfl

/-- No two rows have one stamp. -/
def StampsDiffer (procs : StoreProcesses) : Prop :=
  (procs.stamps.map Prod.snd).Nodup

theorem stampsDiffer_initial : initial.StampsDiffer := List.nodup_nil

theorem stampsDiffer_step {before after : StoreProcesses}
    {action : StoreAction} (hdiffer : before.StampsDiffer)
    (hstamped : before.StampedApart action)
    (hstep : before.step action = some after) : after.StampsDiffer := by
  rcases step_stamps hstep with hsame | ⟨jobId, now, hstamp, hnew⟩
  · rw [StampsDiffer, hsame]
    exact hdiffer
  · rw [StampsDiffer, hnew, List.map_append, List.nodup_append]
    refine ⟨hdiffer, List.nodup_singleton _, ?_⟩
    intro old hold other hother
    rw [List.mem_singleton.mp hother]
    rw [stamps, List.map_map] at hold
    obtain ⟨row, hrow, rfl⟩ := List.mem_map.mp hold
    exact hstamped now hstamp row hrow

/-- The stamps only grow, at their end. -/
theorem stamps_grow {before after : StoreProcesses}
    {actions : List StoreAction}
    (hexec : exec step before actions = some after) :
    before.stamps <+: after.stamps := by
  have hkeep : ∀ (middle : StoreProcesses) action (next : StoreProcesses),
      before.stamps <+: middle.stamps → middle.step action = some next →
      before.stamps <+: next.stamps := by
    intro middle action next hprefix hstep
    rcases step_stamps hstep with hsame | ⟨jobId, now, _, hnew⟩
    · rwa [hsame]
    · rw [hnew]
      exact hprefix.trans (List.prefix_append _ _)
  exact invariant_of_exec hkeep (List.prefix_refl _) hexec

/-- `ORDER BY created_at`. -/
def Older (stamp other : JobId × Nat) : Prop := stamp.2 ≤ other.2

instance : DecidableRel Older := fun stamp other =>
  inferInstanceAs (Decidable (stamp.2 ≤ other.2))

instance : IsTrans (JobId × Nat) Older where
  trans _ _ _ hfirst hsecond := Nat.le_trans hfirst hsecond

instance : Std.Total Older where
  total stamp other := Nat.le_total stamp.2 other.2

/-- A job may be committed after one with a later stamp, so the order of the
listing is not that of the table. -/
def oldestFirst (procs : StoreProcesses) : List (JobId × Nat) :=
  procs.stamps.insertionSort Older

theorem oldestFirst_grows {before after : StoreProcesses}
    {actions : List StoreAction}
    (hexec : exec step before actions = some after) :
    before.oldestFirst.Sublist after.oldestFirst :=
  insertionSort_sublist (stamps_grow hexec).sublist

/-- Of rows whose stamps differ there is only one listing. -/
theorem stamps_of_lists {procs : StoreProcesses}
    (hdiffer : procs.StampsDiffer) {records : List ImportJobRecord}
    (hlists : procs.store.Lists records) :
    (records.map fun row => (row.id, row.createdAt)) = procs.oldestFirst := by
  have hrows : (records.map fun row => (row.id, row.createdAt)).Perm
      procs.oldestFirst :=
    (hlists.rows.map _).trans (List.perm_insertionSort Older _).symm
  have hsorted : (records.map fun row =>
      (row.id, row.createdAt)).Pairwise Older :=
    List.pairwise_map.mpr hlists.sorted
  refine List.Perm.eq_of_pairwise ?_ hsorted
    (List.pairwise_insertionSort Older _) hrows
  intro stamp other hstamp hother hle hge
  have hmem : ∀ entry, entry ∈ procs.oldestFirst → entry ∈ procs.stamps :=
    fun entry => (List.mem_insertionSort Older).mp
  exact List.inj_on_of_nodup_map hdiffer
    (hmem stamp (hrows.mem_iff.mp hstamp)) (hmem other hother)
    (Nat.le_antisymm hle hge)

/-- The ids of a listing, newest first. -/
theorem ids_of_lists {procs : StoreProcesses} (hdiffer : procs.StampsDiffer)
    {records : List ImportJobRecord} (hlists : procs.store.Lists records) :
    (jobViews records).reverse.map ImportJob.id =
      (procs.oldestFirst.map Prod.fst).reverse := by
  rw [← stamps_of_lists hdiffer hlists, jobViews, List.map_reverse,
    List.map_map, List.map_map]
  rfl

/-- Read the listing page by page until a page is not full, each page of a
fresh listing, while the processes do what they like in between: every job
that existed at the beginning is on one of the pages. -/
theorem reading_on_misses_no_job (start : List StoreAction)
    (between : Nat → List StoreAction) (states : Nat → StoreProcesses)
    (listed : Nat → List ImportJobRecord) (count : Nat)
    (params : Nat → PageQueryParams) (size : Nat)
    (hstart : exec step initial start = some (states 0))
    (hstarted : Admitted step StampedApart initial start)
    (hbetween : ∀ k < count,
      exec step (states k) (between k) = some (states (k + 1)) ∧
        Admitted step StampedApart (states k) (between k))
    (hlisted : ∀ k ≤ count, (states k).store.Lists (listed k))
    (hparams : ∀ k ≤ count,
      (params k).page = k + 1 ∧ (params k).pageSize = size)
    (hshort : (listImports (params count)
      (jobViews (listed count))).length < size)
    (jobId : JobId) (row : ImportJobRecord)
    (hrow : (states 0).store.job? jobId = some row) :
    ∃ k ≤ count, ∃ job ∈ listImports (params k) (jobViews (listed k)),
      job.id = jobId := by
  have hdiffer : ∀ k ≤ count, (states k).StampsDiffer := by
    intro k
    induction k with
    | zero =>
        intro _
        exact invariant_of_admitted
          (fun _ _ _ hbefore hok hstep => stampsDiffer_step hbefore hok hstep)
          stampsDiffer_initial hstarted hstart
    | succ k ih =>
        intro hk
        obtain ⟨hexec, hadmitted⟩ := hbetween k hk
        exact invariant_of_admitted
          (fun _ _ _ hbefore hok hstep => stampsDiffer_step hbefore hok hstep)
          (ih (Nat.le_of_lt hk)) hadmitted hexec
  have hpage : ∀ k ≤ count,
      (listImports (params k) (jobViews (listed k))).map ImportJob.id =
        page size (k + 1) ((states k).oldestFirst.map Prod.fst).reverse := by
    intro k hk
    obtain ⟨hnumber, hsize⟩ := hparams k hk
    rw [listImports, PageQueryParams.slice, map_page, hnumber, hsize,
      ids_of_lists (hdiffer k hk) (hlisted k hk)]
  have hgrow : ∀ k, k + 1 < count + 1 →
      ((states k).oldestFirst.map Prod.fst).reverse.Sublist
        ((states (k + 1)).oldestFirst.map Prod.fst).reverse := by
    intro k hk
    rw [List.reverse_sublist]
    exact (oldestFirst_grows (hbetween k (by omega)).1).map _
  have hhere : jobId ∈ ((states 0).oldestFirst.map Prod.fst).reverse := by
    obtain ⟨hmem, rfl⟩ := KeyedTable.get?_eq_some_iff.mp hrow
    rw [List.mem_reverse]
    refine List.mem_map.mpr ⟨(row.id, row.createdAt), ?_, rfl⟩
    rw [oldestFirst, List.mem_insertionSort]
    exact List.mem_map_of_mem hmem
  have hlast : (page size (count + 1)
      ((states count).oldestFirst.map Prod.fst).reverse).length < size := by
    rw [← hpage count (Nat.le_refl count), List.length_map]
    exact hshort
  obtain ⟨k, hk, hseen⟩ := seen_of_growing hgrow hlast hhere
  rw [← hpage k (by omega)] at hseen
  obtain ⟨job, hjob, hid⟩ := List.mem_map.mp hseen
  exact ⟨k, by omega, job, hjob, hid⟩

/-- Jobs 6, 7 and 8 are submitted; between the first page and the second
another process commits job 9, which is older than job 8. -/
def threeSubmitted : List StoreAction :=
  [.create 6 0 (.ofPaths []), .create 7 10 (.ofPaths []),
    .create 8 30 (.ofPaths [])]

def committedLate (k : Nat) : List StoreAction :=
  if k = 0 then [.create 9 20 (.ofPaths [])] else []

def meanwhile (k : Nat) : List StoreAction :=
  threeSubmitted ++ if k = 0 then [] else committedLate 0

def stateAfter (actions : List StoreAction) : StoreProcesses :=
  (exec step initial actions).getD initial

def pageOfTwo (k : Nat) : PageQueryParams :=
  ⟨k + 1, 2, by omega, by decide, by decide⟩

/-- Job 7 is shown twice, and job 6 on the second page. -/
theorem reading_on_while_submitting :
    ∃ k ≤ 2, ∃ job ∈ listImports (pageOfTwo k)
      (jobViews (stateAfter (meanwhile k)).store.byAge), job.id = 6 := by
  refine reading_on_misses_no_job threeSubmitted committedLate
    (fun k => stateAfter (meanwhile k))
    (fun k => (stateAfter (meanwhile k)).store.byAge) 2 pageOfTwo 2 rfl
    (by decide) ?_ (fun k _ => ImportStore.lists_byAge _)
    (fun _ _ => ⟨rfl, rfl⟩) (by decide) 6 _ rfl
  intro k hk
  rcases (by omega : k = 0 ∨ k = 1) with rfl | rfl
  · exact ⟨rfl, by decide⟩
  · exact ⟨rfl, by decide⟩

end StoreProcesses

end Beetkeeper
