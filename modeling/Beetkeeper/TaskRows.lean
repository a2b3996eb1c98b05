/-
The pushes of any number of import tasks and removals, interleaved: on the
events page every task has one row, and every removal its own.
-/
import Mathlib.Data.List.Pairwise
import Beetkeeper.EventMerge

namespace Beetkeeper

open GroupedRows GreedyPairing

namespace EventPush

/-- The type is one of those the plugin pushes to the route. -/
def OfRoute : EventPush → Prop
  | album albumEvent => albumEvent.eventType = .albumImported ∨
      albumEvent.eventType = .albumRemoved
  | track trackEvent => trackEvent.eventType = .trackImported ∨
      trackEvent.eventType = .trackRemoved
  | filesystem fsEvent => fsEvent.eventType = .importTaskFiles

/-- The releases of the tracks of an import task. -/
def releases (importedItems : List TrackEventBody) :
    List EventSubjectSummary :=
  importedItems.foldl (fun summaries item =>
    appendAlbumSummary summaries item.trackFields.albumId
      (nonEmpty? item.trackFields.album)) []

def trackSubject (item : TrackEventBody) : EventSubjectSummary :=
  ⟨some item.trackFields.id, nonEmpty? item.trackFields.title⟩

def albums : EventPush → List EventSubjectSummary
  | album albumEvent => [⟨some albumEvent.albumFields.id,
      nonEmpty? albumEvent.albumFields.album⟩]
  | track _ => []
  | filesystem fsEvent => releases fsEvent.importedItems

def tracks : EventPush → List EventSubjectSummary
  | album _ => []
  | track trackEvent => [trackSubject trackEvent]
  | filesystem fsEvent => fsEvent.importedItems.map trackSubject

/-- The record of a push in the listing. -/
def details (push : EventPush) : ListenerEventDetails :=
  ⟨push.eventType, push.pushedAt.wall, push.albums, push.tracks,
    push.sourcePaths, push.destinationPaths⟩

end EventPush

theorem listedRecord_of_ofRoute {pushes : List EventPush} {k : Nat}
    {push : EventPush} (hpush : pushes[k]? = some push)
    (hroute : push.OfRoute) :
    (ledgerOf pushes).listedRecord (push.event (1 + k)) = push.details := by
  simp only [EventsDb.listedRecord, EventPush.event,
    albumRowsOf_event hpush, trackRowsOf_event hpush,
    sourcePathRowsOf_event hpush, destinationPathRowsOf_event hpush]
  cases push with
  | album albumEvent =>
      rcases hroute with htype | htype <;>
        simp [EventPush.eventType, htype, EventPush.details,
          EventPush.albumRows, EventPush.albums, EventPush.tracks,
          EventPush.sourcePaths, EventPush.destinationPaths,
          eventTypesWithAlbumRows, eventTypesWithTrackRows, albumSummary]
  | track trackEvent =>
      rcases hroute with htype | htype <;>
        simp [EventPush.eventType, htype, EventPush.details,
          EventPush.trackRows, EventPush.albums, EventPush.tracks,
          EventPush.sourcePaths, EventPush.destinationPaths,
          eventTypesWithAlbumRows, eventTypesWithTrackRows, trackSummary,
          trackEventRow, EventPush.trackSubject]
  | filesystem fsEvent =>
      have htype : fsEvent.eventType = .importTaskFiles := hroute
      simp only [EventPush.eventType, htype, EventPush.details,
        EventPush.trackRows, EventPush.albums, EventPush.tracks,
        EventPush.sourcePathRows, EventPush.destinationPathRows,
        EventPush.sourcePaths, eventTypesWithTrackRows, if_true,
        List.map_map, List.foldl_map, EventPush.releases, appendRelease,
        trackEventRow]
      simp [Function.comp_def, trackSummary, EventPush.trackSubject,
        trackEventRow]

section

variable {pushes : List EventPush}

/-- Pushes that arrive in the order of their times are listed in reverse. -/
theorem recentListenerEvents_of_ordered
    (hordered : pushes.Pairwise fun push later =>
      push.pushedAt.wall ≤ later.pushedAt.wall)
    {limit : Nat} (hlimit : pushes.length ≤ limit) :
    (ledgerOf pushes).recentListenerEvents 0 limit =
      (ledgerOf pushes).listenerEvents.reverse := by
  have hsorted : (ledgerOf pushes).listenerEvents.reverse.Pairwise
      ListenerEvent.ListedBefore := by
    rw [List.pairwise_reverse, (records_ledgerOf pushes).listenerEvents]
    refine pairwise_blocks ?_ hordered 1
    intro n m push later hlt hle
    unfold ListenerEvent.ListedBefore EventPush.event
    dsimp only
    omega
  have hperm := List.perm_insertionSort ListenerEvent.ListedBefore
    (ledgerOf pushes).listenerEvents
  have hlength : (ledgerOf pushes).listenerEvents.length = pushes.length := by
    rw [(records_ledgerOf pushes).listenerEvents, blocks]
    simp
  rw [EventsDb.recentListenerEvents, List.drop_zero, List.take_of_length_le]
  · apply List.Perm.eq_of_pairwise _ (List.pairwise_insertionSort _ _)
      hsorted (hperm.trans (List.reverse_perm _).symm)
    intro event other hevent hother hbefore hafter
    apply List.inj_on_of_nodup_map (nodup_eventIds pushes)
      (hperm.mem_iff.mp hevent) (List.mem_reverse.mp hother)
    unfold ListenerEvent.ListedBefore at hbefore hafter
    omega
  · rw [hperm.length_eq, hlength]
    exact hlimit

/-- The listing of such pushes is their records in reverse. -/
theorem listenerEventRecordsLookup_of_ordered
    (hordered : pushes.Pairwise fun push later =>
      push.pushedAt.wall ≤ later.pushedAt.wall)
    (hroutes : ∀ push ∈ pushes, push.OfRoute) {limit : Nat}
    (hlimit : pushes.length ≤ limit) :
    (ledgerOf pushes).listenerEventRecordsLookup 0 limit =
      (pushes.map EventPush.details).reverse := by
  rw [listenerEventRecordsLookup_eq (nodup_eventIds pushes),
    recentListenerEvents_of_ordered hordered hlimit, List.map_reverse]
  congr 1
  have hvalue : ∀ (k : Nat) (push : EventPush), pushes[k]? = some push →
      (ledgerOf pushes).listedRecord (push.event (1 + k)) = push.details :=
    fun k push hpush => listedRecord_of_ofRoute hpush
      (hroutes push (List.mem_of_getElem? hpush))
  generalize (ledgerOf pushes).listedRecord = record at hvalue
  rw [(records_ledgerOf pushes).listenerEvents]
  exact map_blocks hvalue

end

/-- An album import: the push of its files, and the push of its album. -/
structure AlbumTask where
  files : ImportTaskFilesEventBody
  imported : AlbumEventBody
  files_type : files.eventType = .importTaskFiles
  imported_type : imported.eventType = .albumImported
  items_ne : files.importedItems ≠ []
  items_album : ∀ item ∈ files.importedItems,
    item.trackFields.albumId = some imported.albumFields.id
deriving Repr, DecidableEq

/-- A singleton import: the push of its file, and the push of its track. -/
structure SingletonTask where
  files : ImportTaskFilesEventBody
  imported : TrackEventBody
  files_type : files.eventType = .importTaskFiles
  imported_type : imported.eventType = .trackImported
  item_mem : imported.trackFields.id ∈
    files.importedItems.map fun item => item.trackFields.id
  items_album : ∀ item ∈ files.importedItems,
    item.trackFields.albumId = none
deriving Repr, DecidableEq

/-- An import task with its two pushes. -/
inductive PushedTask where
  | album (task : AlbumTask)
  | singleton (task : SingletonTask)
deriving Repr, DecidableEq

namespace PushedTask

def files : PushedTask → ImportTaskFilesEventBody
  | album task => task.files
  | singleton task => task.files

def filesPush (task : PushedTask) : EventPush := .filesystem task.files

def importedPush : PushedTask → EventPush
  | album task => .album task.imported
  | singleton task => .track task.imported

def albumId? : PushedTask → Option Int
  | album task => some task.imported.albumFields.id
  | singleton _ => none

def itemIds (task : PushedTask) : List Int :=
  task.files.importedItems.map fun item => item.trackFields.id

/-- The tasks have no album and no item in common. -/
def Apart (task other : PushedTask) : Prop :=
  (∀ albumId, task.albumId? = some albumId →
    other.albumId? ≠ some albumId) ∧
  ∀ itemId ∈ task.itemIds, itemId ∉ other.itemIds

/-- The one row of a task. -/
def row (task : PushedTask) : EventDisplayRecord where
  eventLabel := match task with
    | album _ => "Album imported"
    | singleton _ => "Singleton imported"
  pushedAt := task.importedPush.pushedAt.wall
  albums := orderedUnion task.importedPush.albums task.filesPush.albums
  tracks := orderedUnion task.importedPush.tracks task.filesPush.tracks
  sourcePaths := task.filesPush.sourcePaths
  destinationPaths := task.filesPush.destinationPaths

end PushedTask

/-- The push of a removal. -/
def EventPush.IsRemoval : EventPush → Prop
  | album albumEvent => albumEvent.eventType = .albumRemoved
  | track trackEvent => trackEvent.eventType = .trackRemoved
  | filesystem _ => False

/-- A push of a task or of a removal. -/
inductive Scheduled where
  | files (task : PushedTask)
  | imported (task : PushedTask)
  | removal (push : EventPush) (hremoval : push.IsRemoval)
deriving DecidableEq

namespace Scheduled

def push : Scheduled → EventPush
  | files task => task.filesPush
  | imported task => task.importedPush
  | removal push _ => push

/-- The row that stands for the push; the files of a task have none of their
own. -/
def row? : Scheduled → Option EventDisplayRecord
  | files _ => none
  | imported task => some task.row
  | removal push _ => some (displayRecord push.details)

end Scheduled

/-- The pushes of the tasks and the removals, interleaved: of each task the
files come first, the imported event at most a minute after them, and the
times never go back. -/
structure Interleaves (tasks : List PushedTask)
    (removals : List {push : EventPush // push.IsRemoval})
    (schedule : List Scheduled) : Prop where
  apart : tasks.Pairwise PushedTask.Apart
  pushes : schedule.Perm
    (tasks.flatMap (fun task => [.files task, .imported task]) ++
      removals.map fun removal => .removal removal.1 removal.2)
  filesFirst : schedule.Pairwise fun first later =>
    ∀ task, first = .imported task → later ≠ .files task
  soon : ∀ task ∈ tasks, task.importedPush.pushedAt.wall ≤
    task.filesPush.pushedAt.wall + mergePartnerMaxSkew
  ordered : schedule.Pairwise fun first later =>
    first.push.pushedAt.wall ≤ later.push.pushedAt.wall

/-- The ids among the releases are those of the tracks. -/
theorem mem_albumIds_appendAlbumSummary
    {summaries : List EventSubjectSummary} {albumId? : Option Int}
    {name : Option String} {albumId : Int} :
    albumId ∈ (appendAlbumSummary summaries albumId? name).filterMap
        EventSubjectSummary.beetsId ↔
      albumId ∈ summaries.filterMap EventSubjectSummary.beetsId ∨
        albumId? = some albumId := by
  have hkept : ∀ summary ∈ summaries, summary.beetsId = albumId? →
      albumId? = some albumId →
      albumId ∈ summaries.filterMap EventSubjectSummary.beetsId := by
    intro summary hmem hsame hsome
    exact List.mem_filterMap.mpr ⟨summary, hmem, hsame.trans hsome⟩
  rw [appendAlbumSummary]
  by_cases hnone : albumId? = none ∧ name = none
  · rw [if_pos hnone, hnone.1]
    simp
  · rw [if_neg hnone]
    by_cases hany : albumId? ≠ none ∧
        (summaries.any fun summary => summary.beetsId = albumId?) = true
    · rw [if_pos hany]
      obtain ⟨summary, hmem, hsame⟩ := List.any_eq_true.mp hany.2
      exact ⟨.inl, fun hor => hor.elim id
        (hkept summary hmem (of_decide_eq_true hsame))⟩
    · rw [if_neg hany]
      by_cases hmem : (⟨albumId?, name⟩ : EventSubjectSummary) ∈ summaries
      · rw [if_pos hmem]
        exact ⟨.inl, fun hor => hor.elim id (hkept _ hmem rfl)⟩
      · rw [if_neg hmem, List.filterMap_append, List.mem_append]
        refine or_congr_right ?_
        cases albumId? <;> simp [eq_comm]

theorem mem_albumIds_releases {importedItems : List TrackEventBody}
    {albumId : Int} :
    albumId ∈ (EventPush.releases importedItems).filterMap
        EventSubjectSummary.beetsId ↔
      ∃ item ∈ importedItems, item.trackFields.albumId = some albumId := by
  induction importedItems using List.reverseRecOn with
  | nil => simp [EventPush.releases]
  | append_singleton items item ih =>
      rw [EventPush.releases, List.foldl_append, List.foldl_cons,
        List.foldl_nil, mem_albumIds_appendAlbumSummary]
      rw [EventPush.releases] at ih
      rw [ih]
      simp [or_and_right, exists_or]

namespace PushedTask

variable {task other : PushedTask}

theorem files_eventType (task : PushedTask) :
    task.filesPush.details.eventType = .importTaskFiles := by
  cases task with
  | album task => exact task.files_type
  | singleton task => exact task.files_type

theorem albumIds_files {albumId : Int} :
    albumId ∈ task.filesPush.details.albumIds ↔
      task.albumId? = some albumId := by
  refine mem_albumIds_releases.trans ?_
  cases task with
  | album task =>
      constructor
      · rintro ⟨item, hmem, hitem⟩
        exact (task.items_album item hmem).symm.trans hitem
      · intro hsome
        obtain ⟨item, hmem⟩ := List.exists_mem_of_ne_nil _ task.items_ne
        exact ⟨item, hmem, (task.items_album item hmem).trans hsome⟩
  | singleton task =>
      constructor
      · rintro ⟨item, hmem, hitem⟩
        rw [task.items_album item hmem] at hitem
        cases hitem
      · intro hsome
        cases hsome

theorem trackIds_files : task.filesPush.details.trackIds = task.itemIds := by
  rw [ListenerEventDetails.trackIds, itemIds]
  exact (List.filterMap_map ..).trans (congrFun List.filterMap_eq_map' _)

/-- The imported event pairs with the files of its own task. -/
theorem pairsWith_own (task : PushedTask) :
    PairsWith task.importedPush.details task.filesPush.details := by
  cases task with
  | album task =>
      have htype : (PushedTask.album task).importedPush.details.eventType =
        .albumImported := task.imported_type
      refine ⟨[task.imported.albumFields.id], ?_, files_eventType _, ?_⟩
      · rw [pairingIds?, htype]
        rfl
      · refine ⟨_, List.mem_cons_self, ?_⟩
        rw [comparedIds, htype, if_pos rfl]
        exact albumIds_files.mpr rfl
  | singleton task =>
      have htype : (PushedTask.singleton task).importedPush.details.eventType =
        .trackImported := task.imported_type
      refine ⟨[task.imported.trackFields.id], ?_, files_eventType _, ?_⟩
      · rw [pairingIds?, htype]
        rfl
      · refine ⟨_, List.mem_cons_self, ?_⟩
        rw [comparedIds, htype, if_neg (by decide), trackIds_files]
        exact task.item_mem

/-- It pairs with the files of no task that is apart. -/
theorem not_pairsWith_of_apart (hapart : task.Apart other) :
    ¬ PairsWith task.importedPush.details other.filesPush.details := by
  rintro ⟨ids, hids, -, beetsId, hmem, hshared⟩
  cases task with
  | album task =>
      have htype : (PushedTask.album task).importedPush.details.eventType =
        .albumImported := task.imported_type
      rw [pairingIds?, htype] at hids
      obtain rfl := Option.some.inj hids
      obtain rfl := List.mem_singleton.mp hmem
      rw [comparedIds, htype, if_pos rfl, albumIds_files] at hshared
      exact hapart.1 _ rfl hshared
  | singleton task =>
      have htype : (PushedTask.singleton task).importedPush.details.eventType =
        .trackImported := task.imported_type
      rw [pairingIds?, htype] at hids
      obtain rfl := Option.some.inj hids
      obtain rfl := List.mem_singleton.mp hmem
      rw [comparedIds, htype, if_neg (by decide), trackIds_files] at hshared
      exact hapart.2 _ task.item_mem hshared

theorem Apart.ne (hapart : task.Apart other) : task ≠ other := by
  rintro rfl
  cases task with
  | album task => exact hapart.1 _ rfl rfl
  | singleton task => exact hapart.2 _ task.item_mem task.item_mem

theorem Apart.symm (hapart : task.Apart other) : other.Apart task :=
  ⟨fun albumId hother hsame => hapart.1 albumId hsame hother,
    fun itemId hother hmem => hapart.2 itemId hmem hother⟩

theorem mergedDisplayRecord_eq (task : PushedTask) :
    mergedDisplayRecord task.importedPush.details task.filesPush.details =
      some task.row := by
  cases task with
  | album task =>
      have htype : (PushedTask.album task).importedPush.details.eventType =
        .albumImported := task.imported_type
      rw [mergedDisplayRecord, htype]
      rfl
  | singleton task =>
      have htype : (PushedTask.singleton task).importedPush.details.eventType =
        .trackImported := task.imported_type
      rw [mergedDisplayRecord, htype]
      rfl

end PushedTask

namespace Interleaves

variable {tasks : List PushedTask}
  {removals : List {push : EventPush // push.IsRemoval}}
  {schedule : List Scheduled}

theorem mem_tasks (hinter : Interleaves tasks removals schedule)
    {task : PushedTask} (hmem : Scheduled.imported task ∈ schedule) :
    task ∈ tasks := by
  have hall := hinter.pushes.mem_iff.mp hmem
  simpa using hall

theorem files_mem (hinter : Interleaves tasks removals schedule)
    {task : PushedTask} (htask : task ∈ tasks) :
    Scheduled.files task ∈ schedule := by
  apply hinter.pushes.mem_iff.mpr
  simpa using htask

theorem mem_tasks_of_files (hinter : Interleaves tasks removals schedule)
    {task : PushedTask} (hmem : Scheduled.files task ∈ schedule) :
    task ∈ tasks := by
  have hall := hinter.pushes.mem_iff.mp hmem
  simpa using hall

theorem imported_mem (hinter : Interleaves tasks removals schedule)
    {task : PushedTask} (htask : task ∈ tasks) :
    Scheduled.imported task ∈ schedule := by
  apply hinter.pushes.mem_iff.mpr
  simpa using htask

/-- Only removals come twice. -/
theorem pairwise_once (hinter : Interleaves tasks removals schedule) :
    schedule.Pairwise fun first later =>
      first = later → ∃ push hremoval, first = .removal push hremoval := by
  have hsymm : ∀ first later : Scheduled,
      (first = later → ∃ push hremoval, first = .removal push hremoval) →
      later = first → ∃ push hremoval, later = .removal push hremoval := by
    rintro first later honce rfl
    exact honce rfl
  rw [hinter.pushes.pairwise_iff (fun {first later} => hsymm first later),
    List.pairwise_append]
  refine ⟨?_, ?_, ?_⟩
  · rw [List.pairwise_flatMap]
    constructor
    · intro task _
      simp
    · refine hinter.apart.imp ?_
      intro task other hapart first hfirst later hlater hsame
      have hne := hapart.ne
      simp only [List.mem_cons, List.not_mem_nil, or_false] at hfirst hlater
      rcases hfirst with rfl | rfl <;> rcases hlater with rfl | rfl <;>
        simp_all
  · rw [List.pairwise_map]
    refine List.pairwise_of_forall ?_
    intro first later _
    exact ⟨_, _, rfl⟩
  · intro first hfirst later hlater hsame
    obtain ⟨removal, -, rfl⟩ := List.mem_map.mp hlater
    exact ⟨_, _, hsame⟩

/-- The pushes of tasks stand at one place each. -/
theorem index_unique (hinter : Interleaves tasks removals schedule)
    {first later : Nat} {scheduled : Scheduled}
    (hfirst : schedule.reverse[first]? = some scheduled)
    (hlater : schedule.reverse[later]? = some scheduled)
    (htask : ∀ push hremoval, scheduled ≠ .removal push hremoval) :
    first = later := by
  have honce := List.pairwise_reverse.mpr (hinter.pairwise_once.imp
    fun {first later} h hsame => h (Eq.symm hsame))
  obtain ⟨hfirstlt, hfirsteq⟩ := List.getElem?_eq_some_iff.mp hfirst
  obtain ⟨hlaterlt, hlatereq⟩ := List.getElem?_eq_some_iff.mp hlater
  have hnot : ∀ i j (hi : i < schedule.reverse.length)
      (hj : j < schedule.reverse.length), schedule.reverse[i] = scheduled →
      schedule.reverse[j] = scheduled → ¬ i < j := by
    intro i j hi hj hieq hjeq hlt
    obtain ⟨push, hremoval, hsome⟩ :=
      List.pairwise_iff_getElem.mp honce i j hi hj hlt (hieq.trans hjeq.symm)
    exact htask push hremoval (hjeq.symm.trans hsome)
  have hle := hnot first later hfirstlt hlaterlt hfirsteq hlatereq
  have hge := hnot later first hlaterlt hfirstlt hlatereq hfirsteq
  omega

/-- In the listing the imported event stands before its files. -/
theorem imported_before_files (hinter : Interleaves tasks removals schedule)
    {index other : Nat} {task : PushedTask}
    (hindex : schedule.reverse[index]? = some (.imported task))
    (hother : schedule.reverse[other]? = some (.files task)) :
    index < other := by
  have hfiles := List.pairwise_reverse.mpr hinter.filesFirst
  obtain ⟨hindexlt, hindexeq⟩ := List.getElem?_eq_some_iff.mp hindex
  obtain ⟨hotherlt, hothereq⟩ := List.getElem?_eq_some_iff.mp hother
  by_contra hnot
  rcases Nat.lt_or_eq_of_le (Nat.le_of_not_lt hnot) with hlt | rfl
  · exact List.pairwise_iff_getElem.mp hfiles other index hotherlt hindexlt
      hlt task hindexeq hothereq
  · rw [hindexeq] at hothereq
    cases hothereq

/-- The listing goes back in time. -/
theorem wall_le (hinter : Interleaves tasks removals schedule)
    {index other : Nat} {scheduled earlier : Scheduled} (hle : index ≤ other)
    (hindex : schedule.reverse[index]? = some scheduled)
    (hother : schedule.reverse[other]? = some earlier) :
    earlier.push.pushedAt.wall ≤ scheduled.push.pushedAt.wall := by
  have hordered := List.pairwise_reverse.mpr hinter.ordered
  obtain ⟨hindexlt, rfl⟩ := List.getElem?_eq_some_iff.mp hindex
  obtain ⟨hotherlt, rfl⟩ := List.getElem?_eq_some_iff.mp hother
  rcases Nat.lt_or_eq_of_le hle with hlt | rfl
  · exact List.pairwise_iff_getElem.mp hordered index other hindexlt hotherlt
      hlt
  · exact Int.le_refl _

end Interleaves

/-- Where the files of the imported event at an index stand. -/
def mate (listing : List Scheduled) (index : Nat) : Option Nat :=
  match listing[index]? with
  | some (.imported task) => some (listing.idxOf (.files task))
  | _ => none

/-- The records of a listing of pushes. -/
def recordsOf (listing : List Scheduled) : List ListenerEventDetails :=
  listing.map fun scheduled => scheduled.push.details

theorem recordsOf_getElem?_eq_some {listing : List Scheduled} {index : Nat}
    {record : ListenerEventDetails}
    (hrecord : (recordsOf listing)[index]? = some record) :
    ∃ scheduled, listing[index]? = some scheduled ∧
      scheduled.push.details = record := by
  rw [recordsOf, List.getElem?_map] at hrecord
  exact Option.map_eq_some_iff.mp hrecord

theorem recordsOf_getElem? {listing : List Scheduled} {index : Nat}
    {scheduled : Scheduled} (hget : listing[index]? = some scheduled) :
    (recordsOf listing)[index]? = some scheduled.push.details := by
  rw [recordsOf, List.getElem?_map, hget, Option.map_some]

theorem mate_eq_some_iff {listing : List Scheduled} {index other : Nat} :
    mate listing index = some other ↔
      ∃ task, listing[index]? = some (.imported task) ∧
        listing.idxOf (.files task) = other := by
  rw [mate]
  constructor
  · intro hsome
    split at hsome
    · exact ⟨_, ‹_›, Option.some.inj hsome⟩
    · cases hsome
  · rintro ⟨task, hget, rfl⟩
    rw [hget]

theorem EventPush.IsRemoval.eventType {push : EventPush}
    (hremoval : push.IsRemoval) :
    push.eventType = .albumRemoved ∨ push.eventType = .trackRemoved := by
  cases push with
  | album albumEvent => exact .inl hremoval
  | track trackEvent => exact .inr hremoval
  | filesystem fsEvent => exact hremoval.elim

theorem PushedTask.imported_eventType (task : PushedTask) :
    task.importedPush.eventType = .albumImported ∨
      task.importedPush.eventType = .trackImported := by
  cases task with
  | album task => exact .inl task.imported_type
  | singleton task => exact .inr task.imported_type

/-- Only the files of a task are an import task's record, and only an imported
event has ids to pair on. -/
theorem files_of_pairsWith {scheduled candidate : Scheduled}
    (hpairs : PairsWith scheduled.push.details candidate.push.details) :
    (∃ task, scheduled = .imported task) ∧
      ∃ other, candidate = .files other := by
  obtain ⟨ids, hids, htype, -⟩ := hpairs
  have himported : scheduled.push.eventType = .albumImported ∨
      scheduled.push.eventType = .trackImported := pairingIds?_isSome hids
  constructor
  · cases scheduled with
    | imported task => exact ⟨task, rfl⟩
    | files task =>
        have hfiles : task.filesPush.eventType = .importTaskFiles :=
          task.files_eventType
        simp [Scheduled.push, hfiles] at himported
    | removal push hremoval =>
        rcases hremoval.eventType with hremoved | hremoved <;>
          simp [Scheduled.push, hremoved] at himported
  · have hcandidate : candidate.push.eventType = .importTaskFiles := htype
    cases candidate with
    | files other => exact ⟨other, rfl⟩
    | imported task =>
        rcases task.imported_eventType with htask | htask <;>
          simp [Scheduled.push, htask] at hcandidate
    | removal push hremoval =>
        rcases hremoval.eventType with hremoved | hremoved <;>
          simp [Scheduled.push, hremoved] at hcandidate

namespace Interleaves

variable {tasks : List PushedTask}
  {removals : List {push : EventPush // push.IsRemoval}}
  {schedule : List Scheduled}

/-- The files of an imported event stand in the listing. -/
theorem getElem?_idxOf_files (hinter : Interleaves tasks removals schedule)
    {index : Nat} {task : PushedTask}
    (hindex : schedule.reverse[index]? = some (.imported task)) :
    schedule.reverse[schedule.reverse.idxOf (.files task)]? =
      some (.files task) := by
  apply List.getElem?_idxOf
  rw [List.mem_reverse]
  apply hinter.files_mem
  exact hinter.mem_tasks (List.mem_reverse.mp (List.mem_of_getElem? hindex))

/-- While only the files of earlier events are taken, an imported event finds
its own. -/
theorem isPartner_files (hinter : Interleaves tasks removals schedule)
    {index : Nat} {task : PushedTask} {taken : List Nat}
    (hindex : schedule.reverse[index]? = some (.imported task))
    (htaken : ∀ other ∈ taken, ∃ earlier, earlier < index ∧
      mate schedule.reverse earlier = some other) :
    IsPartner (recordsOf schedule.reverse) taken index
      (schedule.reverse.idxOf (.files task)) := by
  have hfiles := hinter.getElem?_idxOf_files hindex
  have htask := hinter.mem_tasks
    (List.mem_reverse.mp (List.mem_of_getElem? hindex))
  refine ⟨hinter.imported_before_files hindex hfiles, ?_,
    ⟨_, _, recordsOf_getElem? hindex, recordsOf_getElem? hfiles,
      task.pairsWith_own⟩, ?_, ?_⟩
  · intro hmem
    obtain ⟨earlier, hlt, hmate⟩ := htaken _ hmem
    obtain ⟨other, hother, hsame⟩ := mate_eq_some_iff.mp hmate
    have hotherFiles := hinter.getElem?_idxOf_files hother
    rw [hsame, hfiles] at hotherFiles
    obtain rfl := Scheduled.files.inj (Option.some.inj hotherFiles)
    have heq := hinter.index_unique hother hindex (by simp)
    omega
  · intro record between m hrecord hlt hle hbetween
    obtain ⟨scheduled, hscheduled, rfl⟩ := recordsOf_getElem?_eq_some hbetween
    obtain rfl := Option.some.inj
      ((recordsOf_getElem? hindex).symm.trans hrecord)
    have hafter := hinter.wall_le hle hscheduled hfiles
    have hbefore := hinter.wall_le (Nat.le_of_lt hlt) hindex hscheduled
    have hsoon := hinter.soon task htask
    change task.filesPush.pushedAt.wall ≤ _ at hafter
    change _ ≤ task.importedPush.pushedAt.wall at hbefore
    change (task.importedPush.pushedAt.wall -
      scheduled.push.pushedAt.wall).natAbs ≤ mergePartnerMaxSkew
    omega
  · intro record between m hrecord hlt hless hbetween
    obtain ⟨scheduled, hscheduled, rfl⟩ := recordsOf_getElem?_eq_some hbetween
    obtain rfl := Option.some.inj
      ((recordsOf_getElem? hindex).symm.trans hrecord)
    refine .inr fun hpairs => ?_
    obtain ⟨-, other, rfl⟩ := files_of_pairsWith hpairs
    by_cases hsame : task = other
    · subst hsame
      have heq := hinter.index_unique hscheduled hfiles (by simp)
      omega
    · have : Std.Symm PushedTask.Apart :=
        ⟨fun _ _ hapart => hapart.symm⟩
      have hother := hinter.mem_tasks_of_files
        (List.mem_reverse.mp (List.mem_of_getElem? hscheduled))
      exact PushedTask.not_pairsWith_of_apart
        (hinter.apart.forall htask hother hsame) hpairs

/-- Every record is given its mate. -/
theorem partnerIndex_eq_mate (hinter : Interleaves tasks removals schedule)
    (index : Nat) (taken : List Nat)
    (htaken : ∀ other ∈ taken, ∃ earlier, earlier < index ∧
      mate schedule.reverse earlier = some other) :
    importTaskFilesPartnerIndex (recordsOf schedule.reverse) index taken =
      mate schedule.reverse index := by
  by_cases himported :
      ∃ task, schedule.reverse[index]? = some (.imported task)
  · obtain ⟨task, hindex⟩ := himported
    rw [mate_eq_some_iff.mpr ⟨task, hindex, rfl⟩,
      importTaskFilesPartnerIndex_eq_some_iff]
    exact hinter.isPartner_files hindex htaken
  · have hmate : mate schedule.reverse index = none := by
      rw [Option.eq_none_iff_forall_ne_some]
      intro other hother
      obtain ⟨task, hindex, -⟩ := mate_eq_some_iff.mp hother
      exact himported ⟨task, hindex⟩
    rw [hmate, Option.eq_none_iff_forall_ne_some]
    intro other hother
    have hpartner := importTaskFilesPartnerIndex_eq_some_iff.mp hother
    obtain ⟨record, candidate, hrecord, hcandidate, hpairs⟩ := hpartner.pairs
    obtain ⟨scheduled, hscheduled, rfl⟩ := recordsOf_getElem?_eq_some hrecord
    obtain ⟨later, -, rfl⟩ := recordsOf_getElem?_eq_some hcandidate
    obtain ⟨⟨task, rfl⟩, -⟩ := files_of_pairsWith hpairs
    exact himported ⟨task, hscheduled⟩

theorem eq_mate_of_mem_mergePass
    (hinter : Interleaves tasks removals schedule) :
    ∀ entry ∈ mergePass (recordsOf schedule.reverse),
      entry.2 = mate schedule.reverse entry.1 :=
  eq_mate_of_mem_pass hinter.partnerIndex_eq_mate List.pairwise_lt_range
    fun _ hnone => absurd hnone List.not_mem_nil

theorem files_of_mem_partners (hinter : Interleaves tasks removals schedule)
    {other : Nat}
    (hother : other ∈ partners (mergePass (recordsOf schedule.reverse))) :
    ∃ task, schedule.reverse[other]? = some (.files task) := by
  obtain ⟨taker, hentry⟩ := mem_partners_iff.mp hother
  obtain ⟨task, htask, rfl⟩ := mate_eq_some_iff.mp
    (hinter.eq_mate_of_mem_mergePass _ hentry).symm
  exact ⟨task, hinter.getElem?_idxOf_files htask⟩

/-- The partners are the files of the tasks. -/
theorem mem_partners_iff_files (hinter : Interleaves tasks removals schedule)
    {index : Nat} {scheduled : Scheduled}
    (hindex : schedule.reverse[index]? = some scheduled) :
    index ∈ partners (mergePass (recordsOf schedule.reverse)) ↔
      ∃ task, scheduled = .files task := by
  constructor
  · intro hmem
    obtain ⟨task, htask⟩ := hinter.files_of_mem_partners hmem
    exact ⟨task, Option.some.inj (hindex.symm.trans htask)⟩
  · rintro ⟨task, rfl⟩
    have himported := hinter.imported_mem (hinter.mem_tasks_of_files
      (List.mem_reverse.mp (List.mem_of_getElem? hindex)))
    obtain ⟨taker, htaker⟩ := List.mem_iff_getElem?.mp
      (List.mem_reverse.mpr himported)
    have hfree :
        taker ∉ partners (mergePass (recordsOf schedule.reverse)) := by
      intro hmem
      obtain ⟨other, hother⟩ := hinter.files_of_mem_partners hmem
      rw [htaker] at hother
      cases hother
    obtain ⟨other, hentry⟩ := mem_mergePass (recordsOf_getElem? htaker) hfree
    have hown : mate schedule.reverse taker = some index :=
      mate_eq_some_iff.mpr ⟨task, htaker, hinter.index_unique
        (hinter.getElem?_idxOf_files htaker) hindex (by simp)⟩
    have hmate := hinter.eq_mate_of_mem_mergePass _ hentry
    dsimp only at hmate
    rw [hown] at hmate
    exact mem_partners_iff.mpr ⟨taker, hmate ▸ hentry⟩

/-- The row of an entry that is shown. -/
theorem displayRow_mate (hinter : Interleaves tasks removals schedule)
    {index : Nat} {scheduled : Scheduled}
    (hindex : schedule.reverse[index]? = some scheduled)
    (hfiles : ¬ ∃ task, scheduled = .files task) :
    displayRow (recordsOf schedule.reverse)
      (index, mate schedule.reverse index) = scheduled.row? := by
  have hrecord := recordsOf_getElem? hindex
  cases scheduled with
  | files task => exact absurd ⟨task, rfl⟩ hfiles
  | imported task =>
      have hpartner := recordsOf_getElem? (hinter.getElem?_idxOf_files hindex)
      rw [mate_eq_some_iff.mpr ⟨task, hindex, rfl⟩, displayRow]
      simp only [hrecord, hpartner, Option.bind_some]
      exact task.mergedDisplayRecord_eq
  | removal push hremoval =>
      have hmate : mate schedule.reverse index = none := by
        rw [mate, hindex]
      rw [hmate, displayRow]
      simp only [hrecord, Option.map_some]
      rfl

end Interleaves

theorem Scheduled.ofRoute (scheduled : Scheduled) : scheduled.push.OfRoute := by
  cases scheduled with
  | files task => exact task.files_eventType
  | imported task =>
      cases task with
      | album task => exact .inl task.imported_type
      | singleton task => exact .inl task.imported_type
  | removal push hremoval =>
      cases push with
      | album albumEvent => exact .inr hremoval
      | track trackEvent => exact .inr hremoval
      | filesystem fsEvent => exact hremoval.elim

theorem filterMap_row?_tasks (tasks : List PushedTask) :
    (tasks.flatMap fun task =>
      [Scheduled.files task, .imported task]).filterMap Scheduled.row? =
        tasks.map PushedTask.row := by
  induction tasks with
  | nil => rfl
  | cons task rest ih =>
      rw [List.flatMap_cons, List.filterMap_append, ih]
      rfl

theorem RowsOf.eq_filterMap {eventRecords : List ListenerEventDetails}
    {rows : List EventDisplayRecord} {entries : List (Nat × Option Nat)}
    (hrows : RowsOf eventRecords rows entries) :
    rows = entries.filterMap (displayRow eventRecords) := by
  induction hrows with
  | nil => rfl
  | cons hrow _ ih => rw [List.filterMap_cons_some hrow, ← ih]

namespace Interleaves

variable {tasks : List PushedTask}
  {removals : List {push : EventPush // push.IsRemoval}}
  {schedule : List Scheduled}

/-- The rows follow the listing. -/
theorem mergeImportEventRecords_recordsOf
    (hinter : Interleaves tasks removals schedule) :
    mergeImportEventRecords (recordsOf schedule.reverse) =
      some (schedule.reverse.filterMap Scheduled.row?) := by
  obtain ⟨rows, hrows, hrowsOf⟩ :=
    mergeImportEventRecords_rowsOf (recordsOf schedule.reverse)
  have hentries : mergePass (recordsOf schedule.reverse) =
      ((List.range (recordsOf schedule.reverse).length).filter fun index =>
        index ∉ partners (mergePass (recordsOf schedule.reverse))).map
          fun index => (index, mate schedule.reverse index) := by
    rw [← map_fst_mergePass, List.map_map]
    refine (List.map_id _).symm.trans (List.map_congr_left ?_)
    intro entry hentry
    exact Prod.ext rfl (hinter.eq_mate_of_mem_mergePass entry hentry)
  have hrange : List.range (recordsOf schedule.reverse).length =
      schedule.reverse.zipIdx.map Prod.snd := by
    rw [List.zipIdx_map_snd, recordsOf, List.length_map,
      List.range_eq_range']
  have hlisting : schedule.reverse.filterMap Scheduled.row? =
      schedule.reverse.zipIdx.filterMap fun entry => entry.1.row? := by
    conv_lhs => rw [← List.zipIdx_map_fst 0 schedule.reverse]
    rw [List.filterMap_map]
    rfl
  rw [hrows, hrowsOf.eq_filterMap, hlisting]
  congr 1
  rw [hentries, hrange, List.filterMap_map, List.filter_map,
    List.filterMap_map, List.filterMap_filter]
  apply List.filterMap_congr
  intro entry hentry
  have hindex := List.mem_zipIdx_iff_getElem?.mp hentry
  have hfiles := hinter.mem_partners_iff_files hindex
  by_cases hfile : ∃ task, entry.1 = .files task
  · obtain ⟨task, htask⟩ := hfile
    have hmem := hfiles.mpr ⟨task, htask⟩
    simp [hmem, htask, Scheduled.row?]
  · have hmem : entry.2 ∉ partners (mergePass (recordsOf schedule.reverse)) :=
      fun hpartner => hfile (hfiles.mp hpartner)
    have hrow := hinter.displayRow_mate hindex hfile
    simpa [hmem] using hrow

theorem perm_rows (hinter : Interleaves tasks removals schedule) :
    (schedule.reverse.filterMap Scheduled.row?).Perm
      (tasks.map PushedTask.row ++
        removals.map fun removal => displayRecord removal.1.details) := by
  refine ((List.reverse_perm schedule).filterMap _).trans
    ((hinter.pushes.filterMap _).trans ?_)
  rw [List.filterMap_append, filterMap_row?_tasks, List.filterMap_map]
  refine List.Perm.append_left _ (List.Perm.of_eq ?_)
  exact congrFun List.filterMap_eq_map' _

/-- The events page shows one row for every task and one for every
removal. -/
theorem merge_of_interleaves (hinter : Interleaves tasks removals schedule)
    {limit : Nat} (hlimit : schedule.length ≤ limit) :
    ∃ rows, mergeImportEventRecords
        ((ledgerOf (schedule.map Scheduled.push)).listenerEventRecordsLookup
          0 limit) = some rows ∧
      rows = schedule.reverse.filterMap Scheduled.row? ∧
      rows.Perm (tasks.map PushedTask.row ++
        removals.map fun removal => displayRecord removal.1.details) := by
  refine ⟨_, ?_, rfl, hinter.perm_rows⟩
  rw [listenerEventRecordsLookup_of_ordered, List.map_map,
    ← List.map_reverse]
  · exact hinter.mergeImportEventRecords_recordsOf
  · exact List.pairwise_map.mpr hinter.ordered
  · intro push hmem
    obtain ⟨scheduled, -, rfl⟩ := List.mem_map.mp hmem
    exact scheduled.ofRoute
  · rw [List.length_map]
    exact hlimit

end Interleaves

/-- An album whose first track carries no title. -/
def exampleAlbum : PushedTask := .album
  { files := ⟨.importTaskFiles, ⟨0, 0⟩, some "APPLY", ["/in/Album"],
      [⟨.importTaskFiles, ⟨0, 0⟩, ⟨1, "Album", some 5, [97], ""⟩⟩,
        ⟨.importTaskFiles, ⟨0, 0⟩, ⟨2, "Album", some 5, [98], "Song"⟩⟩]⟩
    imported := ⟨.albumImported, ⟨60000000, 0⟩, ⟨5, "Album"⟩⟩
    files_type := rfl
    imported_type := rfl
    items_ne := by simp
    items_album := by simp }

def exampleSingleton : PushedTask := .singleton
  { files := ⟨.importTaskFiles, ⟨0, 0⟩, some "ASIS", ["/in/loose"],
      [⟨.importTaskFiles, ⟨0, 0⟩, ⟨5, "Release", none, [99], "Loose"⟩⟩]⟩
    imported := ⟨.trackImported, ⟨30000000, 0⟩,
      ⟨5, "Release", none, [99], "Loose"⟩⟩
    files_type := rfl
    imported_type := rfl
    item_mem := by simp
    items_album := by simp }

/-- The album that had the same id before. -/
def exampleRemoval : {push : EventPush // push.IsRemoval} :=
  ⟨.album ⟨.albumRemoved, ⟨30000000, 0⟩, ⟨5, "Gone"⟩⟩, rfl⟩

def exampleSchedule : List Scheduled :=
  [.files exampleAlbum, .files exampleSingleton,
    .removal exampleRemoval.1 exampleRemoval.2, .imported exampleSingleton,
    .imported exampleAlbum]

theorem interleaves_exampleSchedule :
    Interleaves [exampleAlbum, exampleSingleton] [exampleRemoval]
      exampleSchedule := by
  refine ⟨?_, by decide, ?_, ?_, by decide⟩
  · have hapart : exampleAlbum.Apart exampleSingleton := by
      refine ⟨?_, by decide⟩
      intro albumId _ hnone
      cases hnone
    simpa using hapart
  · simp [exampleSchedule, exampleAlbum, exampleSingleton]
  · decide

/-- Both tasks and the removal, their pushes out of step. -/
theorem merge_of_interleaves_example :
    ∃ rows, mergeImportEventRecords
        ((ledgerOf (exampleSchedule.map
          Scheduled.push)).listenerEventRecordsLookup 0 20) = some rows ∧
      rows = exampleSchedule.reverse.filterMap Scheduled.row? ∧
      rows.Perm ([exampleAlbum, exampleSingleton].map PushedTask.row ++
        [exampleRemoval].map fun removal =>
          displayRecord removal.1.details) :=
  interleaves_exampleSchedule.merge_of_interleaves (by decide)

end Beetkeeper
