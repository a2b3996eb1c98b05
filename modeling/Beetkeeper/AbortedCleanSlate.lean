/-
An abort that was accepted while a clean-slate job was still pending, against
the removal the job begins with.  The worker looks at the abort flag when it is
asked for a match and when the run ends, not before the removal; what stands
between an aborted job and its removal is the guard alone.
-/
import Beetkeeper.WorkerSteps
import Beetkeeper.CleanSlateContract

namespace Beetkeeper

open LexicalPath Transition

/-- The clean-slate code as the running system calls it. -/
def cleanSlateHost (beets : Beets) (settings : CleanSlateSettings) :
    Host BeetsWorld :=
  ⟨fun job world =>
    match cleanSlateBlocking beets settings job world with
    | (world, .ok _) => (world, .ok ())
    | (world, .error failure) => (world, .error failure.message)⟩

/-- No row and no file is gone. -/
structure NothingGone (before after : BeetsWorld) : Prop where
  items : ∀ row ∈ before.library.items.rows, row ∈ after.library.items.rows
  albums : ∀ row ∈ before.library.albums.rows,
    row ∈ after.library.albums.rows
  files : ∀ location ∈ before.tree.files, location ∈ after.tree.files

/-- An abort of the job was accepted before any worker claimed it. -/
def System.AbortedPending (system : System BeetsWorld) (jobId : JobId) :
    Prop := .abortAccepted jobId .pending ∈ system.log

/-- A worker's step for a job aborted while pending, from the claim on,
removes nothing. -/
def SparesAborted (before : System BeetsWorld) (action : Action BeetsWorld)
    (after : System BeetsWorld) : Prop :=
  ∀ worker jobId, action.worker? = some worker →
    ((before.workers worker).phase = .selected jobId ∨
      (before.workers worker).phase.job? = some jobId) →
    before.AbortedPending jobId → NothingGone before.world after.world

/-- The clean-slate step of a job aborted while pending finds a reason to
refuse: no downloads folder, not one path, no target, or a preview that is not
`ok`. -/
def RefusesAborted (beets : Beets) (settings : CleanSlateSettings)
    (before : System BeetsWorld) (action : Action BeetsWorld)
    (_after : System BeetsWorld) : Prop :=
  ∀ worker run, action = .run worker .cleanSlate →
    (before.workers worker).phase = .running run →
    before.AbortedPending run.job.id →
    ∀ target path plan,
      ¬ Cleared beets settings run.job before.world target path plan

instance (system : System BeetsWorld) (jobId : JobId) :
    Decidable (system.AbortedPending jobId) :=
  inferInstanceAs (Decidable (Event.abortAccepted jobId .pending ∈ system.log))

theorem NothingGone.refl (world : BeetsWorld) : NothingGone world world :=
  ⟨fun _ h => h, fun _ h => h, fun _ h => h⟩

section

variable {W : Type} {host : Host W} {system : System W} {worker : WorkerId}
  {run : RunState} {move : Move W}

/-- Inside a running job the clean-slate step alone touches the world. -/
theorem runMove_world {action : RunAction}
    (hmove : system.runMove host worker run action = some move)
    (hother : action ≠ .cleanSlate) : move.world = system.world := by
  unfold System.runMove at hmove
  split at hmove
  all_goals repeat' split at hmove
  all_goals first
    | cases hmove; done
    | exact absurd rfl hother
    | (cases hmove; rfl)

theorem runMove_cleanSlate
    (hmove : system.runMove host worker run .cleanSlate = some move) :
    move.world = (host.cleanSlate run.job system.world).1 := by
  cases hthread : run.thread with
  | starting =>
      simp only [System.runMove, hthread] at hmove
      split at hmove
      · split at hmove <;> rename_i hhost <;> cases hmove <;> rw [hhost]
      · cases hmove
  | _ => simp [System.runMove, hthread] at hmove

/-- A worker's step leaves the world alone, or it is the clean-slate step of
the job it runs. -/
theorem step_world {next : System W} {action : Action W}
    (hstep : system.step host action = some next)
    (hworker : action.worker? = some worker) :
    next.world = system.world ∨
      ∃ run, action = .run worker .cleanSlate ∧
        (system.workers worker).phase = .running run ∧
        next.world = (host.cleanSlate run.job system.world).1 := by
  rcases step_cases hstep with ⟨mover, move, hmove, rfl⟩ |
    ⟨request, rfl, _⟩ | ⟨micros, rfl, rfl⟩ | ⟨world, rfl, rfl⟩
  · rcases hmove with hloop | ⟨hphase, hrun⟩
    · exact Or.inl (loopMove_frame hloop).1
    · rename_i action run
      obtain rfl := Option.some.inj hworker
      by_cases hslate : action = .cleanSlate
      · subst hslate
        exact Or.inr ⟨run, rfl, hphase, runMove_cleanSlate hrun⟩
      · exact Or.inl (runMove_world hrun hslate)
  · cases hworker
  · cases hworker
  · cases hworker

end

section

variable {beets : Beets} {settings : CleanSlateSettings}

theorem cleanSlateHost_world (job : ImportJob) (world : BeetsWorld) :
    ((cleanSlateHost beets settings).cleanSlate job world).1 =
      (cleanSlateBlocking beets settings job world).1 := by
  simp only [cleanSlateHost]
  split <;> rename_i hrun <;> rw [hrun]

/-- A cleared clean slate takes something away. -/
theorem not_nothingGone_of_cleared {job : ImportJob} {world : BeetsWorld}
    {target : CleanSlateTarget} {path : OsPath} {plan : CleanSlatePreview}
    (hcleared : Cleared beets settings job world target path plan) :
    ¬ NothingGone world (cleanSlateBlocking beets settings job world).1 := by
  intro hnothing
  obtain ⟨entry, _, hentry, _⟩ := hcleared.entry
  rw [(cleanSlateBlocking_of_cleared hcleared).1] at hnothing
  rcases removeEntry_takes_row hentry with
    ⟨row, hrow, hgone⟩ | ⟨row, hrow, hgone⟩
  · exact hgone (hnothing.items row hrow)
  · exact hgone (hnothing.albums row hrow)

/-- At every step the two conditions agree: the other steps of a worker leave
the world alone, and the clean-slate step does if and only if it refuses. -/
theorem sparesAborted_iff_refuses {before after : System BeetsWorld}
    {action : Action BeetsWorld}
    (hstep : before.step (cleanSlateHost beets settings) action =
      some after) :
    SparesAborted before action after ↔
      RefusesAborted beets settings before action after := by
  constructor
  · rintro hspares worker run rfl hphase habort target path plan hcleared
    have hnothing := hspares worker run.job.id rfl
      (Or.inr (by rw [hphase]; rfl)) habort
    simp only [System.step, hphase, Option.map_eq_some_iff] at hstep
    obtain ⟨move, hmove, rfl⟩ := hstep
    simp only [System.apply, runMove_cleanSlate hmove, cleanSlateHost_world]
      at hnothing
    exact not_nothingGone_of_cleared hcleared hnothing
  · intro hrefuses worker jobId hworker hjob habort
    rcases step_world hstep hworker with hsame | ⟨run, rfl, hphase, hworld⟩
    · rw [hsame]
      exact NothingGone.refl _
    · obtain rfl : run.job.id = jobId := by
        rw [hphase] at hjob
        rcases hjob with hselected | hjob
        · cases hselected
        · exact Option.some.inj hjob
      obtain ⟨failure, hrefused⟩ := cleanSlateBlocking_of_not_cleared
        (hrefuses worker run rfl hphase habort)
      rw [hworld, cleanSlateHost_world, hrefused]
      exact NothingGone.refl _

end

/-- Along every run: no worker step removes anything for a job aborted while
pending if and only if at each clean-slate step of such a job the guard
refuses. -/
theorem aborted_jobs_are_spared_iff (beets : Beets)
    (settings : CleanSlateSettings) (world : BeetsWorld)
    (actions : List (Action BeetsWorld)) :
    EveryStep (System.step (cleanSlateHost beets settings)) SparesAborted
        (System.initial world) actions ↔
      EveryStep (System.step (cleanSlateHost beets settings))
        (RefusesAborted beets settings) (System.initial world) actions := by
  have hagree : ∀ before action after, True →
      System.step (cleanSlateHost beets settings) before action =
        some after →
      (SparesAborted before action after ↔
        RefusesAborted beets settings before action after) :=
    fun _ _ _ _ hstep => sparesAborted_iff_refuses hstep
  exact everyStep_congr (fun _ _ _ _ _ => trivial) hagree trivial actions

/-- Job 7, a clean slate of album 1, is aborted while pending; worker 0 then
claims it. -/
def abortedThenClaimed : List (Action BeetsWorld) :=
  [.client (.create 7 { JobSettings.ofPaths [spell ["downloads", "Album"]] with
      cleanSlateAlbumId := some 1 }),
    .client (.abort 7), .loop 0 .boot, .loop 0 .readClock, .loop 0 .acquire,
    .loop 0 .recover, .loop 0 (.select 7), .loop 0 .claim, .loop 0 .reread]

/-- The worker removes the album of the aborted job. -/
theorem aborted_job_removes_album :
    ¬ EveryStep (System.step (cleanSlateHost plainBeets downloadsSettings))
      SparesAborted (System.initial albumWorld)
      (abortedThenClaimed ++ [.run 0 .cleanSlate]) := by
  intro hevery
  have hready : (exec (System.step (cleanSlateHost plainBeets
      downloadsSettings)) (System.initial albumWorld) abortedThenClaimed).map
        (fun system => ((system.workers 0).phase.job?,
          decide (system.AbortedPending 7),
          system.world.library.items.rows.length,
          (system.step (cleanSlateHost plainBeets downloadsSettings)
            (.run 0 .cleanSlate)).map fun after =>
              after.world.library.items.rows.length)) =
      some (some 7, true, 1, some 0) := by
    decide
  obtain ⟨before, hexec, hready⟩ := Option.map_eq_some_iff.mp hready
  simp only [Prod.mk.injEq, decide_eq_true_eq, Option.map_eq_some_iff]
    at hready
  obtain ⟨hjob, habort, hrows, after, hstep, hempty⟩ := hready
  have hnothing := everyStep_concat hevery hexec hstep 0 7 rfl (Or.inr hjob)
    habort
  obtain ⟨row, hrow⟩ := List.exists_mem_of_length_pos
    (hrows ▸ Nat.one_pos)
  have hleft := hnothing.items row hrow
  rw [List.length_eq_zero_iff.mp hempty] at hleft
  cases hleft

end Beetkeeper
