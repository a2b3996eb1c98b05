/-
Whether a queued clean slate removes the entry its preview was computed for.
The job keeps a number, and beets hands the highest number out again once its
row is gone; so the entry under that number may be another one by the time the
job runs.  Every row carries a stamp that no other row ever gets, and the
history notes the stamp of the entry each submission previewed.
-/
import Beetkeeper.Transition
import Beetkeeper.ImportSubmission
import Beetkeeper.CleanSlateContract

namespace Beetkeeper

open LexicalPath Transition

/-- The configuration of the API and of the worker. -/
structure Deployment where
  beets : Beets
  downloadsPath : OsPath
  preserveFields : List String
  worker : CleanSlateSettings

/-- `clean_slate_preview` of the API: an unknown entry is a 404, any other
refusal a 422. -/
def cleanSlatePreview (deployment : Deployment) (world : BeetsWorld)
    (body : CleanSlateSubmitRequest) : Except HttpError CleanSlatePreview :=
  match CleanSlateTarget.fromIds body.beetsAlbumId body.beetsItemId with
  | .error message => .error ⟨422, message⟩
  | .ok target =>
      match preview deployment.beets world target body.sourcePath
          deployment.downloadsPath body.allowFewerFiles
          deployment.preserveFields with
      | .ok plan => .ok plan
      | .error (.refused .notFound message _) => .error ⟨404, message⟩
      | .error failure => .error ⟨422, failure.message⟩

/-- The stamp of the row a target names. -/
def Library.stampOf (library : Library) (target : CleanSlateTarget) :
    Option Nat :=
  match target.subject with
  | .album => (library.getAlbum target.beetsId).map Album.stamp
  | .track => (library.getItem target.beetsId).map Item.stamp

/-- The id beets gives the next row of a table. -/
def nextId (ids : List Nat) : Nat := ids.foldl max 0 + 1

def Library.nextAlbumId (library : Library) : Nat :=
  nextId (library.albums.rows.map Album.id)

def Library.nextItemId (library : Library) : Nat :=
  nextId (library.items.rows.map Item.id)

/-- A queued clean-slate job, with the entry its preview was computed for. -/
structure QueuedCleanSlate where
  job : ImportJob
  target : CleanSlateTarget
  stamp : Nat

/-- `stamps` is the next stamp; it grows with every row ever added. -/
structure EntryHistory where
  world : BeetsWorld
  queue : List QueuedCleanSlate
  stamps : Nat

/-- A library before any submission. -/
def EntryHistory.initial (world : BeetsWorld) : EntryHistory where
  world := world
  queue := []
  stamps := nextId (world.library.albums.rows.map Album.stamp ++
    world.library.items.rows.map Item.stamp)

/-- Submissions, the row changes of imports and removals, changes on the disk,
and the run of a queued job. -/
inductive HistoryAction where
  | submit (jobId : JobId) (now : Nat) (config : ImportConfig)
      (body : CleanSlateSubmitRequest)
  | addAlbum (album : Album)
  | addItem (item : Item)
  | dropAlbum (id : Nat)
  | dropItem (id : Nat)
  | changeDisk (tree : FileTree String)
      (media : Location String → Option MediaTags)
  | run (jobId : JobId)

namespace EntryHistory

/-- `start_clean_slate`: the job is queued if its preview is `ok`. -/
def submit (deployment : Deployment) (history : EntryHistory)
    (jobId : JobId) (now : Nat) (config : ImportConfig)
    (body : CleanSlateSubmitRequest) : Option EntryHistory :=
  match startCleanSlate config
      (cleanSlatePreview deployment history.world body) body,
      CleanSlateTarget.fromIds body.beetsAlbumId body.beetsItemId with
  | .ok settings, .ok target =>
      (history.world.library.stampOf target).map fun stamp =>
        { history with
          queue := history.queue ++
            [⟨(settings.newRecord jobId now).toView, target, stamp⟩] }
  | _, _ => none

/-- The queued clean slate of a job. -/
def queued? (history : EntryHistory) (jobId : JobId) :
    Option QueuedCleanSlate :=
  history.queue.find? fun queued => decide (queued.job.id = jobId)

def setLibrary (history : EntryHistory) (library : Library) : EntryHistory :=
  { history with world := { history.world with library := library } }

def step (deployment : Deployment) (history : EntryHistory) :
    HistoryAction → Option EntryHistory
  | .submit jobId now config body =>
      history.submit deployment jobId now config body
  | .addAlbum album =>
      let library := history.world.library
      (library.albums.insert? { album with
        id := library.nextAlbumId, stamp := history.stamps }).map fun albums =>
          { history.setLibrary { library with albums := albums } with
            stamps := history.stamps + 1 }
  | .addItem item =>
      let library := history.world.library
      (library.items.insert? { item with
        id := library.nextItemId, stamp := history.stamps }).map fun items =>
          { history.setLibrary { library with items := items } with
            stamps := history.stamps + 1 }
  | .dropAlbum id =>
      some (history.setLibrary (history.world.library.dropAlbum id))
  | .dropItem id =>
      some (history.setLibrary (history.world.library.dropItem id))
  | .changeDisk tree media =>
      some { history with
        world := { history.world with tree := tree, media := media } }
  | .run jobId =>
      (history.queued? jobId).map fun queued =>
        { history with
          world := (cleanSlateBlocking deployment.beets deployment.worker
            queued.job history.world).1
          queue := history.queue.filter fun other =>
            decide (other.job.id ≠ jobId) }

end EntryHistory

/-- No row is gone that does not belong to the entry of a target. -/
structure TakesOnly (target : CleanSlateTarget) (before after : BeetsWorld) :
    Prop where
  items : ∀ row ∈ before.library.items.rows, target.ownsItem row = false →
    row ∈ after.library.items.rows
  albums : ∀ row ∈ before.library.albums.rows,
    target.ownsAlbum row = false → row ∈ after.library.albums.rows

/-- A job that runs takes rows of the very entry it was queued for, or it
fails and changes nothing. -/
def RemovesPreviewedEntry (deployment : Deployment) (before : EntryHistory)
    (action : HistoryAction) (after : EntryHistory) : Prop :=
  ∀ jobId queued, action = .run jobId → before.queued? jobId = some queued →
    (before.world.library.stampOf queued.target = some queued.stamp ∧
      TakesOnly queued.target before.world after.world) ∨
    ((∃ failure, (cleanSlateBlocking deployment.beets deployment.worker
        queued.job before.world).2 = .error failure) ∧
      after.world = before.world)

/-- No new row takes the id that a queued clean slate names. -/
def KeepsQueuedIds (before : EntryHistory) : HistoryAction → Prop
  | .addAlbum _ => ∀ queued ∈ before.queue, queued.target.subject = .album →
      queued.target.beetsId ≠ before.world.library.nextAlbumId
  | .addItem _ => ∀ queued ∈ before.queue, queued.target.subject = .track →
      queued.target.beetsId ≠ before.world.library.nextItemId
  | _ => True

/-- What each queued job names is the entry it was queued for, or nothing. -/
structure EntryHistory.QueueKnown (history : EntryHistory) : Prop where
  columns : ∀ queued ∈ history.queue,
    CleanSlateTarget.fromIds queued.job.cleanSlateAlbumId
      queued.job.cleanSlateItemId = .ok queued.target
  stamps : ∀ queued ∈ history.queue, ∀ stamp,
    history.world.library.stampOf queued.target = some stamp →
    stamp = queued.stamp

/-- Removing rows gives no row a new stamp. -/
theorem stampOf_of_fewer {before after : Library} {target : CleanSlateTarget}
    {stamp : Nat}
    (halbums : ∀ row ∈ after.albums.rows, row ∈ before.albums.rows)
    (hitems : ∀ row ∈ after.items.rows, row ∈ before.items.rows)
    (hstamp : after.stampOf target = some stamp) :
    before.stampOf target = some stamp := by
  unfold Library.stampOf at hstamp ⊢
  cases hsubject : target.subject with
  | album =>
      simp only [hsubject, Library.getAlbum, Option.map_eq_some_iff,
        KeyedTable.get?_eq_some_iff] at hstamp ⊢
      obtain ⟨album, ⟨hmem, hid⟩, hsame⟩ := hstamp
      exact ⟨album, ⟨halbums album hmem, hid⟩, hsame⟩
  | track =>
      simp only [hsubject, Library.getItem, Option.map_eq_some_iff,
        KeyedTable.get?_eq_some_iff] at hstamp ⊢
      obtain ⟨item, ⟨hmem, hid⟩, hsame⟩ := hstamp
      exact ⟨item, ⟨hitems item hmem, hid⟩, hsame⟩

/-- A clean slate only takes rows away. -/
theorem cleanSlateBlocking_fewer (beets : Beets)
    (settings : CleanSlateSettings) (job : ImportJob) (world : BeetsWorld) :
    (∀ row ∈ (cleanSlateBlocking beets settings job
        world).1.library.albums.rows, row ∈ world.library.albums.rows) ∧
      (∀ row ∈ (cleanSlateBlocking beets settings job
        world).1.library.items.rows, row ∈ world.library.items.rows) := by
  rcases cleared_or_refused beets settings job world with
    ⟨target, path, plan, hcleared⟩ | ⟨failure, hrefused⟩
  · have hremoved := removeEntry_removed beets world target path
    rw [(cleanSlateBlocking_of_cleared hcleared).1]
    exact ⟨hremoved.albums, hremoved.items⟩
  · rw [hrefused]
    exact ⟨fun _ h => h, fun _ h => h⟩

namespace EntryHistory

variable {deployment : Deployment} {history next : EntryHistory}

theorem queueKnown_initial (world : BeetsWorld) :
    (initial world).QueueKnown := by
  constructor
  · intro queued hmem
    cases hmem
  · intro queued hmem
    cases hmem

/-- Removals of rows, jobs leaving the queue and changes on the disk keep the
queue known. -/
theorem QueueKnown.of_fewer (hknown : history.QueueKnown)
    (hqueue : ∀ queued ∈ next.queue, queued ∈ history.queue)
    (halbums : ∀ row ∈ next.world.library.albums.rows,
      row ∈ history.world.library.albums.rows)
    (hitems : ∀ row ∈ next.world.library.items.rows,
      row ∈ history.world.library.items.rows) : next.QueueKnown where
  columns := fun queued h => hknown.columns queued (hqueue queued h)
  stamps := fun queued h stamp hstamp => hknown.stamps queued
    (hqueue queued h) stamp (stampOf_of_fewer halbums hitems hstamp)

theorem queueKnown_submit (hknown : history.QueueKnown) {jobId : JobId}
    {now : Nat} {config : ImportConfig} {body : CleanSlateSubmitRequest}
    (hsubmit : history.submit deployment jobId now config body = some next) :
    next.QueueKnown := by
  unfold submit at hsubmit
  split at hsubmit
  · rename_i settings target haccepted htarget
    obtain ⟨stamp, hstamp, rfl⟩ := Option.map_eq_some_iff.mp hsubmit
    obtain ⟨halbum, hitem⟩ := startCleanSlate_columns haccepted
    constructor
    · intro queued hmem
      rcases List.mem_append.mp hmem with hold | hnew
      · exact hknown.columns queued hold
      · rw [List.mem_singleton] at hnew
        subst hnew
        simp only [JobSettings.newRecord, ImportJobRecord.toView, halbum, hitem,
          htarget]
    · intro queued hmem other hother
      rcases List.mem_append.mp hmem with hold | hnew
      · exact hknown.stamps queued hold other hother
      · rw [List.mem_singleton] at hnew
        subst hnew
        exact Option.some.inj (hother.symm.trans hstamp)
  · cases hsubmit

theorem queueKnown_addAlbum (hknown : history.QueueKnown) {album : Album}
    (hkeeps : KeepsQueuedIds history (.addAlbum album))
    (hstep : history.step deployment (.addAlbum album) = some next) :
    next.QueueKnown := by
  obtain ⟨albums, hinsert, rfl⟩ := Option.map_eq_some_iff.mp hstep
  refine ⟨hknown.columns, fun queued hmem stamp hstamp =>
    hknown.stamps queued hmem stamp ?_⟩
  rw [← hstamp]
  unfold Library.stampOf
  cases hsubject : queued.target.subject with
  | album =>
      have hne := hkeeps queued hmem hsubject
      simp only [Library.getAlbum, setLibrary, KeyedTable.get?_insert? hinsert,
        if_neg (Ne.symm hne)]
  | track => rfl

theorem queueKnown_addItem (hknown : history.QueueKnown) {item : Item}
    (hkeeps : KeepsQueuedIds history (.addItem item))
    (hstep : history.step deployment (.addItem item) = some next) :
    next.QueueKnown := by
  obtain ⟨items, hinsert, rfl⟩ := Option.map_eq_some_iff.mp hstep
  refine ⟨hknown.columns, fun queued hmem stamp hstamp =>
    hknown.stamps queued hmem stamp ?_⟩
  rw [← hstamp]
  unfold Library.stampOf
  cases hsubject : queued.target.subject with
  | album => rfl
  | track =>
      have hne := hkeeps queued hmem hsubject
      simp only [Library.getItem, setLibrary, KeyedTable.get?_insert? hinsert,
        if_neg (Ne.symm hne)]

theorem queueKnown_step (hknown : history.QueueKnown) {action : HistoryAction}
    (hkeeps : KeepsQueuedIds history action)
    (hstep : history.step deployment action = some next) :
    next.QueueKnown := by
  cases action with
  | submit jobId now config body => exact queueKnown_submit hknown hstep
  | addAlbum album => exact queueKnown_addAlbum hknown hkeeps hstep
  | addItem item => exact queueKnown_addItem hknown hkeeps hstep
  | dropAlbum id =>
      obtain rfl := Option.some.inj hstep
      exact hknown.of_fewer (fun _ h => h)
        (fun _ h => (KeyedTable.mem_delete.mp h).1) (fun _ h => h)
  | dropItem id =>
      obtain rfl := Option.some.inj hstep
      exact hknown.of_fewer (fun _ h => h) (fun _ h => h)
        (fun _ h => (KeyedTable.mem_delete.mp h).1)
  | changeDisk tree media =>
      obtain rfl := Option.some.inj hstep
      exact hknown.of_fewer (fun _ h => h) (fun _ h => h) (fun _ h => h)
  | run jobId =>
      obtain ⟨queued, _, rfl⟩ := Option.map_eq_some_iff.mp hstep
      obtain ⟨halbums, hitems⟩ := cleanSlateBlocking_fewer deployment.beets
        deployment.worker queued.job history.world
      exact hknown.of_fewer (fun _ h => List.mem_of_mem_filter h) halbums
        hitems

/-- A job whose target names no row is refused. -/
theorem refused_of_no_row {queued : QueuedCleanSlate} {world : BeetsWorld}
    {settings : CleanSlateSettings} {beets : Beets}
    (hcolumns : CleanSlateTarget.fromIds queued.job.cleanSlateAlbumId
      queued.job.cleanSlateItemId = .ok queued.target)
    (hnone : world.library.stampOf queued.target = none) :
    ∃ failure, cleanSlateBlocking beets settings queued.job world =
      (world, .error failure) := by
  refine cleanSlateBlocking_of_not_cleared fun target path plan hcleared => ?_
  have hsame := hcleared.oneTarget
  rw [hcolumns] at hsame
  obtain rfl := Except.ok.inj hsame
  obtain ⟨entry, _, hentry, _⟩ := hcleared.entry
  unfold Library.stampOf at hnone
  unfold loadEntry at hentry
  split at hnone
  all_goals
    rename_i hsubject
    rw [Option.map_eq_none_iff] at hnone
    simp [hsubject, hnone] at hentry

/-- The job takes only rows of its target. -/
theorem takesOnly_of_run {queued : QueuedCleanSlate} (beets : Beets)
    (settings : CleanSlateSettings) (world : BeetsWorld)
    (hcolumns : CleanSlateTarget.fromIds queued.job.cleanSlateAlbumId
      queued.job.cleanSlateItemId = .ok queued.target) :
    TakesOnly queued.target world
      (cleanSlateBlocking beets settings queued.job world).1 := by
  rcases cleared_or_refused beets settings queued.job world with
    ⟨target, path, plan, hcleared⟩ | ⟨failure, hrefused⟩
  · have hsame := hcleared.oneTarget
    rw [hcolumns] at hsame
    obtain rfl := Except.ok.inj hsame
    obtain ⟨hitems, halbums⟩ :=
      removeEntry_keeps beets world queued.target path
    rw [(cleanSlateBlocking_of_cleared hcleared).1]
    exact ⟨hitems, halbums⟩
  · rw [hrefused]
    exact ⟨fun _ h _ => h, fun _ h _ => h⟩

theorem removesPreviewedEntry_of_known (hknown : history.QueueKnown)
    {action : HistoryAction}
    (hstep : history.step deployment action = some next) :
    RemovesPreviewedEntry deployment history action next := by
  rintro jobId queued rfl hqueued
  obtain ⟨found, hfound, rfl⟩ := Option.map_eq_some_iff.mp hstep
  obtain rfl := Option.some.inj (hqueued.symm.trans hfound)
  have hmem := List.mem_of_find?_eq_some hqueued
  cases hstamp : history.world.library.stampOf queued.target with
  | some stamp =>
      rw [hknown.stamps queued hmem stamp hstamp]
      exact Or.inl ⟨rfl, takesOnly_of_run deployment.beets deployment.worker
        history.world (hknown.columns queued hmem)⟩
  | none =>
      obtain ⟨failure, hrefused⟩ : ∃ failure,
          cleanSlateBlocking deployment.beets deployment.worker queued.job
            history.world = (history.world, .error failure) :=
        refused_of_no_row (hknown.columns queued hmem) hstamp
      rw [hrefused]
      exact Or.inr ⟨⟨failure, rfl⟩, rfl⟩

end EntryHistory

/-- In every history in which no new row takes the id a queued clean slate
names, each job removes the entry it was queued for, or fails and changes
nothing. -/
theorem clean_slates_remove_previewed_entries (deployment : Deployment)
    (world : BeetsWorld) (actions : List HistoryAction)
    (hadmitted : Admitted (EntryHistory.step deployment) KeepsQueuedIds
      (EntryHistory.initial world) actions) :
    EveryStep (EntryHistory.step deployment)
      (RemovesPreviewedEntry deployment) (EntryHistory.initial world)
      actions :=
  everyStep_of_admitted
    (fun _ _ _ hknown hkeeps hstep =>
      EntryHistory.queueKnown_step hknown hkeeps hstep)
    (fun _ _ _ hknown _ hstep =>
      EntryHistory.removesPreviewedEntry_of_known hknown hstep)
    (EntryHistory.queueKnown_initial world) hadmitted

instance (before : EntryHistory) :
    (action : HistoryAction) → Decidable (KeepsQueuedIds before action)
  | .addAlbum _ => inferInstanceAs (Decidable (∀ queued ∈ before.queue,
      queued.target.subject = .album →
      queued.target.beetsId ≠ before.world.library.nextAlbumId))
  | .addItem _ => inferInstanceAs (Decidable (∀ queued ∈ before.queue,
      queued.target.subject = .track →
      queued.target.beetsId ≠ before.world.library.nextItemId))
  | .submit _ _ _ _ => isTrue trivial
  | .dropAlbum _ => isTrue trivial
  | .dropItem _ => isTrue trivial
  | .changeDisk _ _ => isTrue trivial
  | .run _ => isTrue trivial

def plainDeployment : Deployment :=
  ⟨plainBeets, spell ["downloads"], [], downloadsSettings⟩

/-- The submission of job 7, a clean slate of album 1. -/
def submitAlbum : HistoryAction :=
  .submit 7 0 shippedConfig
    ⟨some 1, none, spell ["downloads", "Album"], false, none, none, none⟩

/-- Another album is imported while job 7 is queued; it gets the id 2. -/
theorem queued_album_is_removed :
    EveryStep (EntryHistory.step plainDeployment)
      (RemovesPreviewedEntry plainDeployment)
      (EntryHistory.initial albumWorld)
      [submitAlbum, .addAlbum albumRow, .run 7] :=
  clean_slates_remove_previewed_entries plainDeployment albumWorld _
    (by decide)

/-- The disk holds a file of another album besides. -/
def twoAlbumsTree : FileTree String where
  files := ["music", "Other", "01.mp3"] :: albumTree.files
  dirs := ["music", "Other"] :: albumTree.dirs
  links := []
  entries_nodup := by decide
  rooted := by decide
  physical := by decide

/-- Album 1 is removed while job 7 is queued, and the other album, imported
next, gets its id. -/
def reusedId : List HistoryAction :=
  [submitAlbum, .dropItem 1, .dropAlbum 1,
    .addAlbum { albumRow with album := "Other", artpath := none },
    .addItem (trackRow (spell ["music", "Other", "01.mp3"]))]

/-- Job 7 then removes the other album and its file. -/
theorem reused_id_loses_another_album :
    ¬ EveryStep (EntryHistory.step plainDeployment)
      (RemovesPreviewedEntry plainDeployment)
      (EntryHistory.initial { albumWorld with tree := twoAlbumsTree })
      (reusedId ++ [.run 7]) := by
  intro hevery
  have hready : (exec (EntryHistory.step plainDeployment)
      (EntryHistory.initial { albumWorld with tree := twoAlbumsTree })
      reusedId).map (fun history =>
        ((history.queued? 7).map fun queued =>
          (queued.stamp, history.world.library.stampOf queued.target,
            (cleanSlateBlocking plainBeets downloadsSettings queued.job
              history.world).2.isOk),
        (history.step plainDeployment (.run 7)).isSome)) =
      some (some (1, some 2, true), true) := by
    decide
  obtain ⟨before, hexec, hready⟩ := Option.map_eq_some_iff.mp hready
  simp only [Prod.mk.injEq, Option.map_eq_some_iff] at hready
  obtain ⟨⟨queued, hqueued, hstamp, hfound, hok⟩, hstep⟩ := hready
  obtain ⟨after, hstep⟩ := Option.isSome_iff_exists.mp hstep
  rcases everyStep_concat hevery hexec hstep 7 queued rfl hqueued with
    ⟨hsame, _⟩ | ⟨⟨failure, hfailure⟩, _⟩
  · rw [hfound, hstamp] at hsame
    cases hsame
  · have hfailed : (cleanSlateBlocking plainBeets downloadsSettings queued.job
        before.world).2 = .error failure := hfailure
    rw [hfailed] at hok
    cases hok

end Beetkeeper
