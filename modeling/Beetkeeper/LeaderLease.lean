/-
The lease and the imports it is meant to serialise.  Between winning
`acquire_lock` and the end of its cycle a worker never looks at the lease
again, so at most one worker imports only as long as nobody takes an expired
lease from a worker still inside its cycle.
-/
import Beetkeeper.FinalStatus

namespace Beetkeeper

open Transition

variable {W : Type}

/-- Whoever is inside a cycle holds the lock row. -/
def System.LeaderHolds (system : System W) : Prop :=
  ∀ worker, (system.workers worker).phase.leading = true →
    ∃ lock, system.store.lock = some lock ∧ lock.holder = some worker

/-- An `acquire_lock` that finds another worker's lease expired finds that
worker outside its cycle. -/
def System.takesOverOnlyIdle (system : System W) (action : Action W) : Prop :=
  ∀ worker now, Acquires system worker now action →
    ∀ lock holder, system.store.lock = some lock →
      lock.holder = some holder → holder ≠ worker →
      (lock.leaseExpiresAt.any fun expiry => decide (expiry < now)) = true →
      (system.workers holder).phase.leading = false

/-- Whose `acquire_lock` the step is, and the time it is given. -/
def System.acquisition? (system : System W) :
    Action W → Option (WorkerId × Nat)
  | .loop worker .acquire =>
      match (system.workers worker).phase with
      | .acquiring now => some (worker, now)
      | _ => none
  | .run worker .renew =>
      match (system.workers worker).phase with
      | .running run => run.renewing.map fun now => (worker, now)
      | _ => none
  | _ => none

theorem acquisition?_eq_some_iff {system : System W} {action : Action W}
    {worker : WorkerId} {now : Nat} :
    system.acquisition? action = some (worker, now) ↔
      Acquires system worker now action := by
  constructor
  · intro hacquires
    unfold System.acquisition? at hacquires
    split at hacquires
    · split at hacquires
      · rename_i hphase
        cases hacquires
        exact .elect hphase
      · cases hacquires
    · split at hacquires
      · rename_i hphase
        obtain ⟨_, hrenewing, hpair⟩ := Option.map_eq_some_iff.mp hacquires
        cases hpair
        exact .renew hphase hrenewing
      · cases hacquires
    · cases hacquires
  · rintro (hphase | ⟨hphase, hrenewing⟩)
    · simp [System.acquisition?, hphase]
    · simp [System.acquisition?, hphase, hrenewing]

theorem takesOverOnlyIdle_iff {system : System W} {action : Action W} :
    system.takesOverOnlyIdle action ↔
      ∀ entry ∈ system.acquisition? action, ∀ lock ∈ system.store.lock,
        ∀ holder ∈ lock.holder, holder ≠ entry.1 →
          (lock.leaseExpiresAt.any fun expiry =>
            decide (expiry < entry.2)) = true →
          (system.workers holder).phase.leading = false :=
  ⟨fun hok entry hentry lock hlock holder hholder =>
      hok entry.1 entry.2 (acquisition?_eq_some_iff.mp hentry) lock holder
        hlock hholder,
    fun hok worker now hacquires lock holder hlock hholder =>
      hok (worker, now) (acquisition?_eq_some_iff.mpr hacquires) lock hlock
        holder hholder⟩

instance (system : System W) (action : Action W) :
    Decidable (system.takesOverOnlyIdle action) :=
  decidable_of_iff _ takesOverOnlyIdle_iff.symm

/-- At most one worker is executing `_run_import_blocking`. -/
def System.OneImport (system : System W) : Prop :=
  ∀ first second, (system.workers first).phase.importing = true →
    (system.workers second).phase.importing = true → first = second

theorem leading_of_importing {phase : Phase}
    (himporting : phase.importing = true) : phase.leading = true := by
  cases phase <;> first | rfl | cases himporting

theorem leaderHolds_initial (world : W) :
    (System.initial world).LeaderHolds := by
  intro worker hleading
  cases hleading

/-- What one worker's statement does to a lock row another worker holds, or
the same one. -/
theorem perform_lock_holder {host : Host W} {system : System W}
    {mover : WorkerId} {action : Action W} {move : Move W}
    (hmove : WorkerMove host system mover action move)
    (hok : system.takesOverOnlyIdle action) {worker : WorkerId}
    (hleading : (system.workers worker).phase.leading = true)
    (hholds : ∃ lock, system.store.lock = some lock ∧
      lock.holder = some worker) :
    ∃ lock, (system.store.perform mover move.statement).lock = some lock ∧
      lock.holder = some worker := by
  obtain ⟨lock, hlock, hholder⟩ := hholds
  cases hstatement : move.statement with
  | read => exact ⟨lock, hlock, hholder⟩
  | job statement => exact ⟨lock, hlock, hholder⟩
  | ensureLockRow =>
      exact ⟨lock, by simp [ImportStore.perform, ImportStore.ensureLockRow,
        hlock], hholder⟩
  | acquireLock now =>
      refine ImportStore.acquireLock_holder hlock hholder ?_
      by_cases hsame : worker = mover
      · exact Or.inl hsame
      · right
        by_contra hexpired
        rw [Bool.not_eq_false] at hexpired
        have hidle := hok mover now (hmove.acquires hstatement) lock worker
          hlock hholder hsame hexpired
        rw [hleading] at hidle
        cases hidle

theorem leaderHolds_step {host : Host W} {system next : System W}
    {action : Action W} (hholds : system.LeaderHolds)
    (hok : system.takesOverOnlyIdle action)
    (hstep : system.step host action = some next) : next.LeaderHolds := by
  intro worker hleading
  rcases step_cases hstep with ⟨mover, move, hmove, rfl⟩ |
    ⟨request, rfl, hclient⟩ | ⟨_, rfl, rfl⟩ | ⟨_, rfl, rfl⟩
  · by_cases hsame : worker = mover
    · subst hsame
      simp only [System.apply, Function.update_self] at hleading ⊢
      rcases hmove.leading hleading with hbefore | ⟨now, hstatement, hwon⟩
      · exact perform_lock_holder hmove hok hbefore (hholds worker hbefore)
      · rw [hstatement]
        exact ImportStore.acquireLock_won hwon
    · simp only [System.apply, Function.update_of_ne hsame] at hleading ⊢
      exact perform_lock_holder hmove hok hleading (hholds worker hleading)
  · obtain ⟨hworkers, hlock, _⟩ := clientStep_frame hclient
    rw [hworkers] at hleading
    rw [hlock]
    exact hholds worker hleading
  · exact hholds worker hleading
  · exact hholds worker hleading

/-- The lock row names one worker, so two leaders are one. -/
theorem oneImport_of_leaderHolds {system : System W}
    (hholds : system.LeaderHolds) : system.OneImport := by
  intro first second hfirst hsecond
  obtain ⟨lock, hlock, hholder⟩ := hholds first (leading_of_importing hfirst)
  obtain ⟨other, hother, hsame⟩ :=
    hholds second (leading_of_importing hsecond)
  obtain rfl := Option.some.inj (hlock.symm.trans hother)
  rw [hholder] at hsame
  exact Option.some.inj hsame

/-- In every run in which no worker loses its lease inside a cycle, at most
one import runs at any moment. -/
theorem at_most_one_import (host : Host W) (world : W)
    (actions : List (Action W))
    (hadmitted : Admitted (System.step host) System.takesOverOnlyIdle
      (System.initial world) actions) (system : System W)
    (hrun : System.runFrom host world actions = some system) :
    system.OneImport :=
  oneImport_of_leaderHolds
    (invariant_of_admitted
      (fun _ _ _ hholds hok hstep => leaderHolds_step hholds hok hstep)
      (leaderHolds_initial world) hadmitted hrun)

/-- Worker 0 imports job 7 and its renewal fails; the lease runs out, worker 1
takes over and imports job 8. -/
def overlapping : List (Action Unit) :=
  claimAndStart 0 ++ [.run 0 .renewClock, .run 0 .renewFault,
    .tick (leaseMicros + 1), .loop 1 .boot, .loop 1 .readClock,
    .loop 1 .acquire, .loop 1 .recover, .client (.create 8 (.ofPaths [])),
    .loop 1 (.select 8), .loop 1 .claim, .loop 1 .reread,
    .run 1 .startSession]

theorem two_imports_overlap :
    ∃ system, System.runFrom plainHost () overlapping = some system ∧
      ¬ system.OneImport := by
  have hboth : (System.runFrom plainHost () overlapping).map (fun system =>
      ((system.workers 0).phase.importing,
        (system.workers 1).phase.importing)) = some (true, true) := by
    decide
  obtain ⟨system, hrun, himporting⟩ := Option.map_eq_some_iff.mp hboth
  obtain ⟨hfirst, hsecond⟩ := Prod.mk.inj himporting
  refine ⟨system, hrun, fun hone => ?_⟩
  exact absurd (hone 0 1 hfirst hsecond) (by decide)

/-- Worker 0 renews its lease, finishes job 7 and stands idle until the lease
has run out; worker 1 takes it and imports job 8, and worker 0, back at work,
is refused. -/
def handedOver : List (Action Unit) :=
  claimAndStart 0 ++ [.tick 10000000, .run 0 .renewClock, .run 0 .renew] ++
    endAndConclude 0 ++ [.loop 0 .writeStatus, .tick (leaseMicros + 1),
      .loop 1 .boot, .loop 1 .readClock, .loop 1 .acquire, .loop 1 .recover,
      .client (.create 8 (.ofPaths [])), .loop 1 (.select 8), .loop 1 .claim,
      .loop 1 .reread, .run 1 .startSession, .loop 0 .readClock,
      .loop 0 .acquire]

theorem at_most_one_import_handed_over :
    ∃ system, System.runFrom plainHost () handedOver = some system ∧
      (system.workers 1).phase.importing = true ∧ system.OneImport := by
  have hstarted : (System.runFrom plainHost () handedOver).map
      (fun system => (system.workers 1).phase.importing) = some true := by
    decide
  obtain ⟨system, hrun, himporting⟩ := Option.map_eq_some_iff.mp hstarted
  exact ⟨system, hrun, himporting, at_most_one_import plainHost () handedOver
    (by decide) system hrun⟩

end Beetkeeper
