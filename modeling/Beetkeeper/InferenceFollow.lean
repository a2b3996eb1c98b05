/-
The fate of an entry's inferred source path over a clean-slate run: the ids
the import events hand the narrator, when they reach the run's result, and the
bookkeeping after the run.
-/
import Beetkeeper.InferredPaths
import Beetkeeper.CleanSlateContract

namespace Beetkeeper

/-- beets' import events.  The listener of an album lists its items first,
which may raise. -/
inductive ImportedEvent where
  | albumImported (id : Nat) (items : Except String Nat)
  | itemImported (id : Nat)

namespace ImportedEvent

def subject : ImportedEvent → CleanSlateSubject
  | .albumImported _ _ => .album
  | .itemImported _ => .track

def id : ImportedEvent → Nat
  | .albumImported id _ => id
  | .itemImported id => id

/-- The exception that leaves the event's listener. -/
def failure : ImportedEvent → Option String
  | .albumImported _ (.error message) => some message
  | _ => none

end ImportedEvent

/-- The ids of the entries of one subject that some events report. -/
def idsOf (subject : CleanSlateSubject) (fired : List ImportedEvent) :
    List Nat :=
  (fired.filter fun event => decide (event.subject = subject)).map
    ImportedEvent.id

/-- `_ImportNarrator`, without its output lines. -/
structure ImportNarrator where
  importedCount : Nat
  importedAlbumIds : List Nat
  importedItemIds : List Nat
deriving Repr, DecidableEq

def ImportNarrator.fresh : ImportNarrator := ⟨0, [], []⟩

/-- `album_imported` and `item_imported`: the state after the call and the
exception that left it. -/
def ImportNarrator.imported (narrator : ImportNarrator) :
    ImportedEvent → ImportNarrator × Option String
  | .albumImported _ (.error message) => (narrator, some message)
  | .albumImported id (.ok _) =>
      ({ narrator with
          importedCount := narrator.importedCount + 1
          importedAlbumIds := narrator.importedAlbumIds ++ [id] }, none)
  | .itemImported id =>
      ({ narrator with
          importedCount := narrator.importedCount + 1
          importedItemIds := narrator.importedItemIds ++ [id] }, none)

/-- The events of a run, in the order the pipeline's threads fire them.  One
thread's exception does not take back what another has fired. -/
def ImportNarrator.narrate :
    ImportNarrator → List ImportedEvent → ImportNarrator × Option String
  | narrator, [] => (narrator, none)
  | narrator, event :: rest =>
      (((narrator.imported event).1.narrate rest).1,
        (narrator.imported event).2.or
          ((narrator.imported event).1.narrate rest).2)

/-- What becomes of a run after its removal: the configuration, the log
handler or the session raises before it starts, or it runs, fires events, and
perhaps raises itself or when its log is closed. -/
inductive ImportScript where
  | unstarted (failure : String)
  | ran (fired : List ImportedEvent) (crash close : Option String)

namespace ImportScript

/-- The events beets fired. -/
def fired : ImportScript → List ImportedEvent
  | .unstarted _ => []
  | .ran fired _ _ => fired

/-- Whether anything raises after the removal. -/
def Raises : ImportScript → Prop
  | .unstarted _ => True
  | .ran fired crash close => crash ≠ none ∨ close ≠ none ∨
      ∃ event ∈ fired, event.failure ≠ none

end ImportScript

/-- `_ImportRunResult`. -/
structure ImportRunResult where
  removed : Option RemovedEntry
  importedAlbumIds : List Nat
  importedItemIds : List Nat
deriving Repr, DecidableEq

/-- The part of `_run_import_blocking` after the removal: the narrator's ids
reach the shared result only at its end. -/
def runSession (script : ImportScript) (result : ImportRunResult) :
    ImportRunResult × Option String :=
  match script with
  | .unstarted failure => (result, some failure)
  | .ran fired crash close =>
      match close.or ((ImportNarrator.fresh.narrate fired).2.or crash) with
      | some failure => (result, some failure)
      | none =>
          ({ result with
              importedAlbumIds :=
                (ImportNarrator.fresh.narrate fired).1.importedAlbumIds
              importedItemIds :=
                (ImportNarrator.fresh.narrate fired).1.importedItemIds }, none)

/-- `_run_import_blocking`: the result as the caller holds it afterwards, and
the exception that left the run. -/
def runImportBlocking (beets : Beets) (settings : CleanSlateSettings)
    (job : ImportJob) (opened : Except String BeetsWorld)
    (script : ImportScript) (result : ImportRunResult) :
    ImportRunResult × Option String :=
  match opened with
  | .error failure => (result, some failure)
  | .ok world =>
      if job.isCleanSlate then
        match (cleanSlateBlocking beets settings job world).2 with
        | .error failure => (result, some failure.message)
        | .ok (removed, _) =>
            runSession script { result with removed := some removed }
      else runSession script result

/-- The ids `_retarget_inferences` looks at for an entry of one subject. -/
def ImportRunResult.idsFor (result : ImportRunResult) :
    CleanSlateSubject → List Nat
  | .album => result.importedAlbumIds
  | .track => result.importedItemIds

/-- `new_id`: the only id of a list. -/
def onlyId : List Nat → Option Nat
  | [id] => some id
  | _ => none

/-- `_retarget_inferences`; a call the database refuses is only logged. -/
def retargetInferences (table : InferenceTable) (removed : RemovedEntry)
    (result : ImportRunResult) : InferenceTable :=
  (retargetInferredSourcePaths table removed.target.subject
    removed.target.beetsId (onlyId (result.idsFor removed.target.subject))
    removed.itemIds).getD table

/-- How a job ended and what it left in the table. -/
structure FinishedJob where
  status : JobOutcome
  table : InferenceTable

/-- The terminal status of `_run_job`. -/
def finishedStatus : Option String → Except String Bool → JobOutcome
  | some _, _ => .failed
  | none, .error _ => .failed
  | none, .ok true => .aborted
  | none, .ok false => .completed

/-- `_run_job` after the run, given its result and the exception that left
it. -/
def finishJob (run : ImportRunResult × Option String)
    (abortRequested : Except String Bool) (table : InferenceTable) :
    FinishedJob where
  status := finishedStatus run.2 abortRequested
  table := match run.1.removed with
    | none => table
    | some removed => retargetInferences table removed run.1

/-- `_run_job`, without its output and its background tasks. -/
def runJob (beets : Beets) (settings : CleanSlateSettings) (job : ImportJob)
    (opened : Except String BeetsWorld) (script : ImportScript)
    (abortRequested : Except String Bool) (table : InferenceTable) :
    FinishedJob :=
  finishJob
    (runImportBlocking beets settings job opened script ⟨none, [], []⟩)
    abortRequested table

/-- An entry's inference goes with the one entry that was imported for it, and
is lost only when none or several were. -/
structure FollowsImport (target : CleanSlateTarget)
    (before after : InferenceKey → Option String) (imported : List Nat) :
    Prop where
  followed : ∀ id, imported = [id] → ∀ path,
    before (target.subject, target.beetsId) = some path →
    after (target.subject, id) = some path
  dropped : ∀ path, before (target.subject, target.beetsId) = some path →
    (∀ id ∈ imported, after (target.subject, id) ≠ some path) →
    imported.length ≠ 1

/-- Nothing raises after the removal once the one entry was imported, or there
is no inference to lose (or an equal one stands under the new id already). -/
def ImportKept (script : ImportScript) (target : CleanSlateTarget)
    (before : InferenceKey → Option String) : Prop :=
  script.Raises → ∀ id, idsOf target.subject script.fired = [id] → ∀ path,
    before (target.subject, target.beetsId) = some path →
    id ≠ target.beetsId ∧ before (target.subject, id) = some path

section Narrator

/-- The ids the narrator holds of one subject. -/
def ImportNarrator.idsFor (narrator : ImportNarrator) :
    CleanSlateSubject → List Nat
  | .album => narrator.importedAlbumIds
  | .track => narrator.importedItemIds

theorem idsOf_cons (subject : CleanSlateSubject) (event : ImportedEvent)
    (rest : List ImportedEvent) :
    idsOf subject (event :: rest) =
      idsOf subject [event] ++ idsOf subject rest := by
  simp only [idsOf, List.filter_cons, List.filter_nil]
  split
  · rfl
  · rfl

/-- An event whose listener does not raise is noted under its subject. -/
theorem imported_of_quiet (narrator : ImportNarrator) {event : ImportedEvent}
    (hquiet : event.failure = none) :
    (narrator.imported event).2 = none ∧
      ∀ subject, (narrator.imported event).1.idsFor subject =
        narrator.idsFor subject ++ idsOf subject [event] := by
  cases event with
  | itemImported id =>
      refine ⟨rfl, fun subject => ?_⟩
      cases subject <;>
        simp [ImportNarrator.imported, ImportNarrator.idsFor, idsOf,
          ImportedEvent.subject, ImportedEvent.id]
  | albumImported id items =>
      cases items with
      | error message => cases hquiet
      | ok count =>
          refine ⟨rfl, fun subject => ?_⟩
          cases subject <;>
            simp [ImportNarrator.imported, ImportNarrator.idsFor, idsOf,
              ImportedEvent.subject, ImportedEvent.id]

theorem imported_of_loud (narrator : ImportNarrator) {event : ImportedEvent}
    (hloud : event.failure ≠ none) : (narrator.imported event).2 ≠ none := by
  cases event with
  | itemImported id => exact absurd rfl hloud
  | albumImported id items =>
      cases items with
      | error message => exact Option.some_ne_none message
      | ok count => exact absurd rfl hloud

/-- Without an exception the narrator notes every id, in the order fired. -/
theorem narrate_of_quiet (fired : List ImportedEvent)
    (hquiet : ∀ event ∈ fired, event.failure = none)
    (narrator : ImportNarrator) :
    (narrator.narrate fired).2 = none ∧
      ∀ subject, (narrator.narrate fired).1.idsFor subject =
        narrator.idsFor subject ++ idsOf subject fired := by
  induction fired generalizing narrator with
  | nil =>
      refine ⟨rfl, fun subject => ?_⟩
      exact (List.append_nil _).symm
  | cons event rest ih =>
      obtain ⟨hhead, hids⟩ :=
        imported_of_quiet narrator (hquiet event List.mem_cons_self)
      obtain ⟨htail, hrest⟩ := ih
        (fun other hother => hquiet other (List.mem_cons_of_mem _ hother))
        (narrator.imported event).1
      constructor
      · rw [ImportNarrator.narrate, hhead]
        exact htail
      · intro subject
        rw [ImportNarrator.narrate, idsOf_cons, ← List.append_assoc,
          ← hids subject]
        exact hrest subject

theorem narrate_of_loud (fired : List ImportedEvent)
    (hloud : ∃ event ∈ fired, event.failure ≠ none)
    (narrator : ImportNarrator) : (narrator.narrate fired).2 ≠ none := by
  induction fired generalizing narrator with
  | nil =>
      obtain ⟨event, hmem, _⟩ := hloud
      cases hmem
  | cons event rest ih =>
      rw [ImportNarrator.narrate]
      by_cases hhead : event.failure = none
      · have hrest : ∃ event ∈ rest, event.failure ≠ none := by
          obtain ⟨other, hother, hfailure⟩ := hloud
          rcases List.mem_cons.mp hother with rfl | hother
          · exact absurd hhead hfailure
          · exact ⟨other, hother, hfailure⟩
        simpa [(imported_of_quiet narrator hhead).1] using
          ih hrest (narrator.imported event).1
      · have hraised := imported_of_loud narrator hhead
        simp [hraised]

end Narrator

/-- A run that raises leaves the result without any id. -/
theorem runSession_of_raises {script : ImportScript} (hraises : script.Raises)
    (result : ImportRunResult) : (runSession script result).1 = result := by
  cases script with
  | unstarted failure => rfl
  | ran fired crash close =>
      rw [runSession]
      have hfailure : close.or
          ((ImportNarrator.fresh.narrate fired).2.or crash) ≠ none := by
        rcases hraises with hcrash | hclose | hloud
        · simp [hcrash]
        · simp [hclose]
        · simp [narrate_of_loud fired hloud ImportNarrator.fresh]
      split
      · rfl
      · rename_i hnone
        exact absurd hnone hfailure

/-- A run that does not raise leaves the ids of every event in the result. -/
theorem runSession_of_not_raises {script : ImportScript}
    (hquiet : ¬ script.Raises) (result : ImportRunResult) :
    (runSession script result).1.removed = result.removed ∧
      ∀ subject, (runSession script result).1.idsFor subject =
        idsOf subject script.fired := by
  cases script with
  | unstarted failure => exact absurd True.intro hquiet
  | ran fired crash close =>
      rw [ImportScript.Raises, not_or, not_or, not_not, not_not] at hquiet
      obtain ⟨hcrash, hclose, hevents⟩ := hquiet
      have hsilent : ∀ event ∈ fired, event.failure = none := by
        intro event hevent
        by_contra hfailure
        exact hevents ⟨event, hevent, hfailure⟩
      obtain ⟨hnarrated, hids⟩ :=
        narrate_of_quiet fired hsilent ImportNarrator.fresh
      rw [runSession, hcrash, hclose, hnarrated]
      refine ⟨rfl, fun subject => ?_⟩
      have hsubject := hids subject
      cases subject
      · exact hsubject
      · exact hsubject

section Removal

variable {beets : Beets} {settings : CleanSlateSettings} {job : ImportJob}
  {world after : BeetsWorld} {removed : RemovedEntry} {preserved : StrDict}

theorem removedEntry_eq {target : CleanSlateTarget} {sourcePath : OsPath}
    (hremove : removeEntry beets world target sourcePath =
      (after, .ok removed)) :
    ∃ entry, loadEntry beets world.library target = some entry ∧
      removed.target = target ∧ removed.itemIds = entry.items.map Item.id := by
  unfold removeEntry at hremove
  cases hentry : loadEntry beets world.library target with
  | none =>
      rw [hentry] at hremove
      cases (Prod.mk.inj hremove).2
  | some entry =>
      rw [hentry] at hremove
      simp only at hremove
      split at hremove
      · cases (Prod.mk.inj hremove).2
      · have hremoved := Except.ok.inj (Prod.mk.inj hremove).2
        exact ⟨entry, rfl, by rw [← hremoved], by rw [← hremoved]⟩

/-- A completed removal belongs to a clean-slate job, and took no item but
the track itself where its target is a track. -/
theorem completed_removal (hremoval : cleanSlateBlocking beets settings job
      world = (after, .ok (removed, preserved))) :
    job.isCleanSlate = true ∧
      (removed.target.subject = .track →
        removed.itemIds = [removed.target.beetsId]) := by
  rcases cleared_or_refused beets settings job world with
    ⟨target, path, plan, hcleared⟩ | ⟨failure, hrefused⟩
  · constructor
    · have honly := hcleared.oneTarget
      rw [ImportJob.isCleanSlate]
      cases halbum : job.cleanSlateAlbumId with
      | some id => rfl
      | none =>
          cases hitem : job.cleanSlateItemId with
          | some id => rfl
          | none =>
              rw [halbum, hitem] at honly
              cases honly
    · obtain ⟨hworld, hresult⟩ := cleanSlateBlocking_of_cleared hcleared
      rw [hremoval] at hworld hresult
      cases hok : (removeEntry beets world target path).2 with
      | error failure =>
          rw [hok] at hresult
          cases hresult
      | ok found =>
          rw [hok] at hresult
          have hfound : removed = found :=
            congrArg Prod.fst (Except.ok.inj hresult)
          have hremove : removeEntry beets world target path =
              (after, .ok found) := Prod.ext hworld.symm hok
          obtain ⟨entry, hentry, htarget, hids⟩ := removedEntry_eq hremove
          intro htrack
          rw [hfound, htarget] at htrack
          rw [hfound, htarget, hids]
          simp only [loadEntry, htrack] at hentry
          obtain ⟨item, hitem, rfl⟩ := Option.map_eq_some_iff.mp hentry
          rw [List.map_singleton, KeyedTable.get?_key hitem]
  · rw [hrefused] at hremoval
    cases (Prod.mk.inj hremoval).2

/-- After a completed removal the job's table is retargeted by what the
session left in the result. -/
theorem table_runJob (hremoval : cleanSlateBlocking beets settings job
      world = (after, .ok (removed, preserved))) (script : ImportScript)
    (abortRequested : Except String Bool) (table : InferenceTable) :
    (runJob beets settings job (.ok world) script abortRequested table).table =
      retargetInferences table removed
        (runSession script ⟨some removed, [], []⟩).1 := by
  have hslate := (completed_removal hremoval).1
  have hrun : runImportBlocking beets settings job (.ok world) script
      ⟨none, [], []⟩ = runSession script ⟨some removed, [], []⟩ := by
    simp only [runImportBlocking, hslate, hremoval, if_true]
  have hkept : (runSession script ⟨some removed, [], []⟩).1.removed =
      some removed := by
    by_cases hraises : script.Raises
    · rw [runSession_of_raises hraises]
    · exact (runSession_of_not_raises hraises _).1
  rw [runJob, hrun, finishJob, hkept]

end Removal

/-- The inference was moved to the one imported id. -/
theorem paths_retargetInferences (table : InferenceTable)
    (removed : RemovedEntry) (result : ImportRunResult) {path : String}
    (hpath : table.paths (removed.target.subject, removed.target.beetsId) =
      some path) :
    Retargets table.paths (retargetInferences table removed result).paths
      removed.target.subject removed.target.beetsId
      (onlyId (result.idsFor removed.target.subject)) removed.itemIds := by
  obtain ⟨row, hrow, _⟩ := Option.map_eq_some_iff.mp hpath
  obtain ⟨after, hafter, hretargets⟩ := retargets_of_present table
    removed.target.subject removed.target.beetsId removed.itemIds
    (onlyId (result.idsFor removed.target.subject)) hrow
  rw [retargetInferences, hafter]
  exact hretargets

/-- Without an id the inference goes, and no other entry of its subject but
the entry itself is touched. -/
theorem paths_of_no_id {before after : InferenceKey → Option String}
    {target : CleanSlateTarget} {itemIds : List Nat}
    (htrack : target.subject = .track → itemIds = [target.beetsId])
    (hretargets : Retargets before after target.subject target.beetsId none
      itemIds) (id : Nat) :
    after (target.subject, id) =
      if id = target.beetsId then none else before (target.subject, id) := by
  by_cases hsame : id = target.beetsId
  · rw [if_pos hsame, hsame]
    exact hretargets.dropped (Option.some_ne_none _).symm
  · rw [if_neg hsame]
    apply hretargets.others
    · intro heq
      exact hsame (congrArg Prod.snd heq)
    · intro other hother
      cases hother
    · intro item hitem heq
      obtain ⟨hsubject, rfl⟩ := Prod.mk.inj heq
      rw [htrack hsubject, List.mem_singleton] at hitem
      exact hsame hitem

theorem FollowsImport.of_followed {target : CleanSlateTarget}
    {before after : InferenceKey → Option String} {imported : List Nat}
    (hfollowed : ∀ id, imported = [id] → ∀ path,
      before (target.subject, target.beetsId) = some path →
      after (target.subject, id) = some path) :
    FollowsImport target before after imported where
  followed := hfollowed
  dropped := by
    intro path hpath hlost hone
    obtain ⟨id, hid⟩ := List.length_eq_one_iff.mp hone
    apply hlost id
    · rw [hid]
      exact List.mem_singleton_self id
    · exact hfollowed id hid path hpath

/-- The inference of a removed entry follows the one entry imported for it
exactly when nothing raises between that import and the end of the run. -/
theorem followsImport_iff (beets : Beets) (settings : CleanSlateSettings)
    (job : ImportJob) (world after : BeetsWorld) (removed : RemovedEntry)
    (preserved : StrDict)
    (hremoval : cleanSlateBlocking beets settings job world =
      (after, .ok (removed, preserved))) (script : ImportScript)
    (abortRequested : Except String Bool) (table : InferenceTable) :
    FollowsImport removed.target table.paths
        (runJob beets settings job (.ok world) script abortRequested
          table).table.paths (idsOf removed.target.subject script.fired) ↔
      ImportKept script removed.target table.paths := by
  rw [table_runJob hremoval]
  obtain ⟨_, htrack⟩ := completed_removal hremoval
  by_cases hraises : script.Raises
  · rw [runSession_of_raises hraises]
    have hnone : onlyId ((⟨some removed, [], []⟩ : ImportRunResult).idsFor
        removed.target.subject) = none := by
      cases removed.target.subject <;> rfl
    have hafter : ∀ path, table.paths
        (removed.target.subject, removed.target.beetsId) = some path →
        ∀ id, (retargetInferences table removed
            ⟨some removed, [], []⟩).paths (removed.target.subject, id) =
          if id = removed.target.beetsId then none
          else table.paths (removed.target.subject, id) := by
      intro path hpath
      have hretargets :=
        paths_retargetInferences table removed ⟨some removed, [], []⟩ hpath
      rw [hnone] at hretargets
      exact paths_of_no_id htrack hretargets
    constructor
    · intro hfollows _ id hid path hpath
      have hmoved := hfollows.followed id hid path hpath
      rw [hafter path hpath] at hmoved
      by_cases hsame : id = removed.target.beetsId
      · rw [if_pos hsame] at hmoved
        cases hmoved
      · rw [if_neg hsame] at hmoved
        exact ⟨hsame, hmoved⟩
    · intro hkept
      apply FollowsImport.of_followed
      intro id hid path hpath
      obtain ⟨hne, hbefore⟩ := hkept hraises id hid path hpath
      rw [hafter path hpath, if_neg hne]
      exact hbefore
  · obtain ⟨_, hids⟩ := runSession_of_not_raises hraises ⟨some removed, [], []⟩
    refine iff_of_true ?_ fun h => absurd h hraises
    apply FollowsImport.of_followed
    intro id hid path hpath
    have hretargets := paths_retargetInferences table removed
      (runSession script ⟨some removed, [], []⟩).1 hpath
    rw [hids, hid] at hretargets
    rw [hretargets.moved id rfl]
    exact hpath

/-- An inference for the album of `albumWorld`. -/
def albumInference : InferenceTable :=
  ⟨[⟨.album, 1, "/downloads/Album", "downloader_hook", none, 0⟩],
    List.nodup_singleton _⟩

/-- The album is imported afresh under id 7, and then the disk is full. -/
def crashedScript : ImportScript :=
  .ran [.albumImported 7 (.ok 1)] (some "No space left on device") none

theorem followsImport_counterexample :
    ∃ after removed preserved,
      cleanSlateBlocking plainBeets downloadsSettings albumJob albumWorld =
        (after, .ok (removed, preserved)) ∧
      ¬ FollowsImport removed.target albumInference.paths
        (runJob plainBeets downloadsSettings albumJob (.ok albumWorld)
          crashedScript (.ok false) albumInference).table.paths
        (idsOf removed.target.subject crashedScript.fired) := by
  refine ⟨_, ⟨⟨.album, 1⟩, [1], ["/music/Album/01.mp3"], [],
    some "/music/Album/cover.jpg"⟩, [], Prod.ext rfl (by decide), ?_⟩
  intro hfollows
  have hmoved := hfollows.followed 7 rfl "/downloads/Album" (by decide)
  revert hmoved
  decide

/-- A run that ends well takes the inference along. -/
theorem followsImport_iff_example :
    ∃ after removed preserved,
      cleanSlateBlocking plainBeets downloadsSettings albumJob albumWorld =
        (after, .ok (removed, preserved)) ∧
      (FollowsImport removed.target albumInference.paths
          (runJob plainBeets downloadsSettings albumJob (.ok albumWorld)
            (.ran [.albumImported 7 (.ok 1)] none none) (.ok false)
            albumInference).table.paths
          (idsOf removed.target.subject [.albumImported 7 (.ok 1)]) ↔
        ImportKept (.ran [.albumImported 7 (.ok 1)] none none) removed.target
          albumInference.paths) := by
  have hremoval : cleanSlateBlocking plainBeets downloadsSettings albumJob
      albumWorld = ((cleanSlateBlocking plainBeets downloadsSettings albumJob
        albumWorld).1, .ok (⟨⟨.album, 1⟩, [1], ["/music/Album/01.mp3"], [],
          some "/music/Album/cover.jpg"⟩, [])) :=
    Prod.ext rfl (by decide)
  exact ⟨_, _, _, hremoval, followsImport_iff plainBeets downloadsSettings
    albumJob albumWorld _ _ _ hremoval
    (.ran [.albumImported 7 (.ok 1)] none none) (.ok false) albumInference⟩

end Beetkeeper
