/-
The lock row under nothing but `acquire_lock` calls.  A call reads the clock
first and sends its one `UPDATE` later, so the timestamps of different workers
may reach the row in any order; the lease is exclusive all the same, because
the row always carries the expiry of the last call that succeeded.
-/
import Mathlib.Logic.Function.Basic
import Beetkeeper.Transition
import Beetkeeper.ImportStore

namespace Beetkeeper

open Transition

/-- The store, the clock, and for each worker the timestamp of the call whose
`UPDATE` is still to come.  `last` is the last call that succeeded; history
only. -/
structure LeaseCalls where
  store : ImportStore
  clock : Nat
  outstanding : WorkerId → Option Nat
  last : Option (WorkerId × Nat)

inductive LeaseCall where
  | tick (micros : Nat)
  /-- another process starts: `ensure_lock_row` -/
  | ensureLockRow
  /-- a call is entered and reads `now` -/
  | enter (worker : WorkerId)
  /-- its `UPDATE` is executed -/
  | update (worker : WorkerId)
  /-- its `UPDATE` raises without effect -/
  | raise (worker : WorkerId)
deriving Repr, DecidableEq

namespace LeaseCalls

/-- A fresh lock row. -/
def initial : LeaseCalls where
  store := ImportStore.empty.ensureLockRow
  clock := 0
  outstanding := fun _ => none
  last := none

/-- What `acquire_lock` returns to the worker. -/
def answer (calls : LeaseCalls) (lease : Nat) (worker : WorkerId)
    (now : Nat) : Bool :=
  (calls.store.acquireLock worker now lease).2

def step (lease : Nat) (calls : LeaseCalls) :
    LeaseCall → Option LeaseCalls
  | .tick micros => some { calls with clock := calls.clock + micros }
  | .ensureLockRow =>
      some { calls with store := calls.store.ensureLockRow }
  | .enter worker =>
      -- a worker issues its calls one after another
      if calls.outstanding worker = none then
        some { calls with
          outstanding :=
            Function.update calls.outstanding worker (some calls.clock) }
      else none
  | .update worker =>
      (calls.outstanding worker).map fun now =>
        { calls with
          store := (calls.store.acquireLock worker now lease).1
          outstanding := Function.update calls.outstanding worker none
          last := if calls.answer lease worker now then some (worker, now)
            else calls.last }
  | .raise worker =>
      (calls.outstanding worker).map fun _ =>
        { calls with
          outstanding := Function.update calls.outstanding worker none }

/-- The lock row as the last successful call left it. -/
def lockOf (lease : Nat) : Option (WorkerId × Nat) → ImportLock
  | none => ⟨none, none⟩
  | some (worker, now) => ⟨some worker, some (now + lease)⟩

/-- What holds between the calls: the row is the last success's, and no
timestamp lies in the future. -/
structure Consistent (lease : Nat) (calls : LeaseCalls) : Prop where
  lock : calls.store.lock = some (lockOf lease calls.last)
  past : ∀ worker now, calls.outstanding worker = some now →
    now ≤ calls.clock

/-- What the execution of a call guarantees: nobody takes over a lease that
has not run out by the clock the call read, and so by the clock itself; a call
that finds the lease run out, or never taken, succeeds. -/
structure Exclusive (lease : Nat) (before : LeaseCalls) (worker : WorkerId)
    (now : Nat) : Prop where
  takeover : before.answer lease worker now = true →
    ∀ holder taken, before.last = some (holder, taken) → holder ≠ worker →
      taken + lease < now ∧ now ≤ before.clock
  expired : ∀ lock expiry, before.store.lock = some lock →
    lock.leaseExpiresAt = some expiry → expiry < now →
    before.answer lease worker now = true
  fresh : before.last = none → before.answer lease worker now = true

/-- Every `UPDATE` of the run is exclusive. -/
def LeaseExclusive (lease : Nat) (before : LeaseCalls) (action : LeaseCall)
    (_ : LeaseCalls) : Prop :=
  ∀ worker now, action = .update worker →
    before.outstanding worker = some now → Exclusive lease before worker now

variable {lease : Nat}

theorem consistent_initial : Consistent lease initial where
  lock := rfl
  past := by
    intro worker now houtstanding
    cases houtstanding

theorem acquireLock_of_lock {store : ImportStore} {lock : ImportLock}
    (hlock : store.lock = some lock) (worker : WorkerId) (now : Nat) :
    store.acquireLock worker now lease =
      if ImportStore.lockAvailable lock worker now then
        ({ store with lock := some ⟨some worker, some (now + lease)⟩ }, true)
      else (store, false) := by
  simp only [ImportStore.acquireLock, hlock]

/-- The answer of a call is the `WHERE` of its `UPDATE` on the row the last
success left. -/
theorem Consistent.answer_eq {calls : LeaseCalls}
    (hcalls : calls.Consistent lease) (worker : WorkerId) (now : Nat) :
    calls.answer lease worker now =
      ImportStore.lockAvailable (lockOf lease calls.last) worker now := by
  rw [answer, acquireLock_of_lock hcalls.lock]
  split
  · rename_i havailable
    exact havailable.symm
  · rename_i htaken
    exact (Bool.not_eq_true _ ▸ htaken).symm

theorem Consistent.lock_acquired {calls : LeaseCalls}
    (hcalls : calls.Consistent lease) (worker : WorkerId) (now : Nat) :
    (calls.store.acquireLock worker now lease).1.lock =
      some (lockOf lease (if calls.answer lease worker now then
        some (worker, now) else calls.last)) := by
  rw [hcalls.answer_eq, acquireLock_of_lock hcalls.lock]
  split
  · rfl
  · exact hcalls.lock

/-- A call leaves its worker's place and nobody else's. -/
theorem outstanding_cleared {calls : LeaseCalls} {worker other : WorkerId}
    {now : Nat} (houtstanding : Function.update calls.outstanding worker none
      other = some now) : calls.outstanding other = some now := by
  by_cases hsame : other = worker
  · subst hsame
    rw [Function.update_self] at houtstanding
    cases houtstanding
  · rwa [Function.update_of_ne hsame] at houtstanding

theorem consistent_step {before after : LeaseCalls} {action : LeaseCall}
    (hbefore : before.Consistent lease)
    (hstep : step lease before action = some after) :
    after.Consistent lease := by
  cases action with
  | tick micros =>
      obtain rfl := Option.some.inj hstep
      exact ⟨hbefore.lock, fun worker now houtstanding =>
        le_trans (hbefore.past worker now houtstanding)
          (Nat.le_add_right _ _)⟩
  | ensureLockRow =>
      obtain rfl := Option.some.inj hstep
      refine ⟨?_, hbefore.past⟩
      simp [ImportStore.ensureLockRow, hbefore.lock]
  | enter worker =>
      simp only [step] at hstep
      split at hstep
      · obtain rfl := Option.some.inj hstep
        refine ⟨hbefore.lock, fun other now houtstanding => ?_⟩
        by_cases hsame : other = worker
        · subst hsame
          simp only [Function.update_self, Option.some.injEq] at houtstanding
          exact houtstanding.ge
        · simp only [Function.update_of_ne hsame] at houtstanding
          exact hbefore.past other now houtstanding
      · cases hstep
  | update worker =>
      obtain ⟨now, _, rfl⟩ := Option.map_eq_some_iff.mp hstep
      exact ⟨hbefore.lock_acquired worker now, fun other taken hother =>
        hbefore.past other taken (outstanding_cleared hother)⟩
  | raise worker =>
      obtain ⟨_, _, rfl⟩ := Option.map_eq_some_iff.mp hstep
      exact ⟨hbefore.lock, fun other taken hother =>
        hbefore.past other taken (outstanding_cleared hother)⟩

/-- On a consistent row the three disjuncts of the `WHERE` are the three
ways in which a call may succeed. -/
theorem Consistent.exclusive {calls : LeaseCalls}
    (hcalls : calls.Consistent lease) {worker : WorkerId} {now : Nat}
    (houtstanding : calls.outstanding worker = some now) :
    Exclusive lease calls worker now where
  takeover := by
    intro hwon holder taken hlast hne
    rw [hcalls.answer_eq, hlast] at hwon
    simp only [ImportStore.lockAvailable, lockOf, Option.isNone_some,
      Bool.or_false, Option.any_some, Bool.or_eq_true, beq_iff_eq,
      Option.some.injEq, decide_eq_true_eq] at hwon
    exact ⟨hwon.resolve_left hne, hcalls.past worker now houtstanding⟩
  expired := by
    intro lock expiry hlock hexpiry hlate
    obtain rfl := Option.some.inj (hlock.symm.trans hcalls.lock)
    rw [hcalls.answer_eq, ImportStore.lockAvailable, hexpiry,
      Option.any_some, decide_eq_true hlate, Bool.or_true]
  fresh := by
    intro hnone
    rw [hcalls.answer_eq, hnone]
    simp [ImportStore.lockAvailable, lockOf]

/-- Whatever the order in which calls are entered and executed, a lease that
is still running is never taken over, and one that has run out is there for
the next call. -/
theorem lease_is_exclusive (lease : Nat) (actions : List LeaseCall) :
    EveryStep (step lease) (LeaseExclusive lease) initial actions :=
  everyStep_of_admitted
    (fun _ _ _ hcalls _ hstep => consistent_step hcalls hstep)
    (fun _ _ _ hcalls _ _ _ _ _ houtstanding =>
      hcalls.exclusive houtstanding)
    consistent_initial (admitted_true initial actions)

/-- Worker 1 enters its call before worker 0's lease has run out and executes
it after: it fails.  Entered one microsecond later it succeeds. -/
example :
    (exec (step 30) initial [.enter 0, .update 0, .tick 30, .enter 1,
      .tick 1, .update 1]).map last = some (some (0, 0)) ∧
    (exec (step 30) initial [.enter 0, .update 0, .tick 31, .enter 1,
      .update 1]).map last = some (some (1, 31)) := by
  decide

end LeaseCalls

end Beetkeeper
