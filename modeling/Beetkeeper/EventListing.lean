/-
The listing of the recorded events, newest first: it asks a child table only
for the events whose type is thought to write it.
-/
import Mathlib.Data.List.Sort
import Beetkeeper.EventLedger

namespace Beetkeeper

open GroupedRows

structure EventSubjectSummary where
  beetsId : Option Int
  name : Option String
deriving Repr, DecidableEq

structure ListenerEventDetails where
  eventType : BeetsEventType
  pushedAt : Int
  albums : List EventSubjectSummary
  tracks : List EventSubjectSummary
  sourcePaths : List String
  destinationPaths : List String
deriving Repr, DecidableEq

def ListenerEventDetails.albumIds (details : ListenerEventDetails) :
    List Int :=
  details.albums.filterMap EventSubjectSummary.beetsId

def ListenerEventDetails.trackIds (details : ListenerEventDetails) :
    List Int :=
  details.tracks.filterMap EventSubjectSummary.beetsId

/-- `_EVENT_TYPES_WITH_ALBUM_ROWS`. -/
def eventTypesWithAlbumRows : List BeetsEventType :=
  [.albumImported, .albumRemoved]

/-- `_EVENT_TYPES_WITH_TRACK_ROWS`. -/
def eventTypesWithTrackRows : List BeetsEventType :=
  [.trackImported, .trackRemoved, .importTaskFiles]

/-- `_EVENT_TYPES_WITH_PATH_ROWS`. -/
def eventTypesWithPathRows : List BeetsEventType := [.importTaskFiles]

/-- `_event_ids_of_types`. -/
def eventIdsOfTypes (events : List ListenerEvent)
    (eventTypes : List BeetsEventType) : List Nat :=
  (events.filter fun event => event.eventType ∈ eventTypes).map
    ListenerEvent.eventId

/-- `ORDER BY pushed_at DESC, event_id DESC`. -/
def ListenerEvent.ListedBefore (event other : ListenerEvent) : Prop :=
  other.pushedAt < event.pushedAt ∨
    (other.pushedAt = event.pushedAt ∧ other.eventId ≤ event.eventId)

instance : DecidableRel ListenerEvent.ListedBefore := fun event other => by
  unfold ListenerEvent.ListedBefore
  infer_instance

/-- `_recent_listener_events`. -/
def EventsDb.recentListenerEvents (db : EventsDb) (offset limit : Nat) :
    List ListenerEvent :=
  ((db.listenerEvents.insertionSort ListenerEvent.ListedBefore).drop
    offset).take limit

/-- `_child_rows`.  The statement asks for no order; the rows of one event come
in the order of their ids. -/
def childRows {R : Type} (listenerEventId : R → Nat) (table : List R)
    (listenerEventIds : List Nat) : List R :=
  if listenerEventIds = [] then []
  else table.filter fun row => listenerEventId row ∈ listenerEventIds

/-- `_album_summary`. -/
def albumSummary (albumRow : AlbumEvent) : EventSubjectSummary :=
  ⟨some albumRow.beetsAlbumId, albumRow.albumName⟩

/-- `_track_summary`. -/
def trackSummary (trackRow : TrackEvent) : EventSubjectSummary :=
  ⟨some trackRow.beetsItemId, trackRow.trackTitle⟩

/-- `_append_album_summary`. -/
def appendAlbumSummary (summaries : List EventSubjectSummary)
    (beetsAlbumId : Option Int) (albumName : Option String) :
    List EventSubjectSummary :=
  if beetsAlbumId = none ∧ albumName = none then summaries
  else if beetsAlbumId ≠ none ∧
      summaries.any (fun summary => summary.beetsId = beetsAlbumId) then
    summaries
  else if ⟨beetsAlbumId, albumName⟩ ∈ summaries then summaries
  else summaries ++ [⟨beetsAlbumId, albumName⟩]

/-- The release of a track row, added to the summaries of its event. -/
def appendRelease (summaries : List EventSubjectSummary)
    (trackRow : TrackEvent) : List EventSubjectSummary :=
  appendAlbumSummary summaries trackRow.beetsAlbumId trackRow.albumName

/-- `_append_import_release_summaries`. -/
def appendImportReleaseSummaries
    (albumsByEvent : Nat → List EventSubjectSummary)
    (trackRows : List TrackEvent) (importTaskFilesEventIds : List Nat) :
    Nat → List EventSubjectSummary :=
  trackRows.foldl (fun albumsByEvent trackRow =>
      if decide (trackRow.listenerEventId ∈ importTaskFilesEventIds) then
        set albumsByEvent trackRow.listenerEventId
          (appendRelease (albumsByEvent trackRow.listenerEventId) trackRow)
      else albumsByEvent)
    albumsByEvent

/-- `listener_event_records_lookup`. -/
def EventsDb.listenerEventRecordsLookup (db : EventsDb)
    (offset limit : Nat) : List ListenerEventDetails :=
  let recentEvents := db.recentListenerEvents offset limit
  let albumEventIds := eventIdsOfTypes recentEvents eventTypesWithAlbumRows
  let trackEventIds := eventIdsOfTypes recentEvents eventTypesWithTrackRows
  let pathEventIds := eventIdsOfTypes recentEvents eventTypesWithPathRows
  let albumRows := childRows AlbumEvent.listenerEventId db.albumEvents
    albumEventIds
  let trackRows := childRows TrackEvent.listenerEventId db.trackEvents
    trackEventIds
  let sourcePathRows := childRows ImportSourcePath.listenerEventId
    db.importSourcePaths pathEventIds
  let destinationPathRows := childRows ImportDestinationPath.listenerEventId
    db.importDestinationPaths pathEventIds
  let albumsByEvent := appendImportReleaseSummaries
    (group AlbumEvent.listenerEventId albumSummary albumRows) trackRows
    pathEventIds
  let tracksByEvent := group TrackEvent.listenerEventId trackSummary trackRows
  let sourcePathsByEvent := group ImportSourcePath.listenerEventId
    ImportSourcePath.sourcePath sourcePathRows
  let destinationPathsByEvent := group ImportDestinationPath.listenerEventId
    ImportDestinationPath.destinationPath destinationPathRows
  recentEvents.map fun event =>
    ⟨event.eventType, event.pushedAt, albumsByEvent event.eventId,
      tracksByEvent event.eventId, sourcePathsByEvent event.eventId,
      destinationPathsByEvent event.eventId⟩

/-- The record of an event under the plain listing: every child table is
asked, and an import task's releases are those of its tracks. -/
def EventsDb.plainRecord (db : EventsDb) (event : ListenerEvent) :
    ListenerEventDetails where
  eventType := event.eventType
  pushedAt := event.pushedAt
  albums :=
    let albums := (db.albumRowsOf event.eventId).map albumSummary
    if event.eventType = .importTaskFiles then
      (db.trackRowsOf event.eventId).foldl appendRelease albums
    else albums
  tracks := (db.trackRowsOf event.eventId).map trackSummary
  sourcePaths := (db.sourcePathRowsOf event.eventId).map
    ImportSourcePath.sourcePath
  destinationPaths := (db.destinationPathRowsOf event.eventId).map
    ImportDestinationPath.destinationPath

def EventsDb.plainListing (db : EventsDb) (offset limit : Nat) :
    List ListenerEventDetails :=
  (db.recentListenerEvents offset limit).map db.plainRecord

/-- The record of an event in the listing, table by table. -/
def EventsDb.listedRecord (db : EventsDb) (event : ListenerEvent) :
    ListenerEventDetails where
  eventType := event.eventType
  pushedAt := event.pushedAt
  albums :=
    if event.eventType = .importTaskFiles then
      (db.trackRowsOf event.eventId).foldl appendRelease []
    else if event.eventType ∈ eventTypesWithAlbumRows then
      (db.albumRowsOf event.eventId).map albumSummary
    else []
  tracks :=
    if event.eventType ∈ eventTypesWithTrackRows then
      (db.trackRowsOf event.eventId).map trackSummary
    else []
  sourcePaths :=
    if event.eventType = .importTaskFiles then
      (db.sourcePathRowsOf event.eventId).map ImportSourcePath.sourcePath
    else []
  destinationPaths :=
    if event.eventType = .importTaskFiles then
      (db.destinationPathRowsOf event.eventId).map
        ImportDestinationPath.destinationPath
    else []

theorem filter_mem_and {R : Type} (listenerEventId : R → Nat)
    (table : List R) (ids : List Nat) (eventId : Nat) :
    table.filter (fun row => decide (listenerEventId row = eventId) &&
        decide (listenerEventId row ∈ ids)) =
      if eventId ∈ ids then rowsOf listenerEventId table eventId else [] := by
  by_cases hmem : eventId ∈ ids
  · rw [if_pos hmem, rowsOf]
    apply List.filter_congr
    intro row _
    by_cases hrow : listenerEventId row = eventId
    · simp [hrow, hmem]
    · simp [hrow]
  · rw [if_neg hmem, List.filter_eq_nil_iff]
    intro row _ hrow
    simp only [Bool.and_eq_true, decide_eq_true_eq] at hrow
    exact hmem (hrow.1 ▸ hrow.2)

theorem rowsOf_childRows {R : Type} (listenerEventId : R → Nat)
    (table : List R) (ids : List Nat) (eventId : Nat) :
    rowsOf listenerEventId (childRows listenerEventId table ids) eventId =
      if eventId ∈ ids then rowsOf listenerEventId table eventId else [] := by
  have hrows : childRows listenerEventId table ids =
      table.filter fun row => listenerEventId row ∈ ids := by
    by_cases hnone : ids = []
    · simp [childRows, hnone]
    · rw [childRows, if_neg hnone]
  rw [hrows, rowsOf, List.filter_filter, filter_mem_and]

theorem appendImportReleaseSummaries_apply
    (albumsByEvent : Nat → List EventSubjectSummary)
    (trackRows : List TrackEvent) (ids : List Nat) (eventId : Nat) :
    appendImportReleaseSummaries albumsByEvent trackRows ids eventId =
      if eventId ∈ ids then
        (rowsOf TrackEvent.listenerEventId trackRows eventId).foldl
          appendRelease (albumsByEvent eventId)
      else albumsByEvent eventId := by
  rw [appendImportReleaseSummaries, foldl_set_apply, filter_mem_and]
  by_cases hmem : eventId ∈ ids
  · rw [if_pos hmem, if_pos hmem]
  · rw [if_neg hmem, if_neg hmem, List.foldl_nil]

section

variable {db : EventsDb}

theorem mem_recentListenerEvents {offset limit : Nat} {event : ListenerEvent}
    (hmem : event ∈ db.recentListenerEvents offset limit) :
    event ∈ db.listenerEvents :=
  (List.mem_insertionSort _).mp (List.mem_of_mem_drop
    (List.mem_of_mem_take hmem))

theorem nodup_recentListenerEvents
    (hnodup : (db.listenerEvents.map ListenerEvent.eventId).Nodup)
    (offset limit : Nat) :
    ((db.recentListenerEvents offset limit).map
      ListenerEvent.eventId).Nodup := by
  have hsorted := ((List.perm_insertionSort ListenerEvent.ListedBefore
    db.listenerEvents).map ListenerEvent.eventId).nodup_iff.mpr hnodup
  have hpage := (List.take_sublist limit
    ((db.listenerEvents.insertionSort ListenerEvent.ListedBefore).drop
      offset)).trans (List.drop_sublist _ _)
  exact List.Nodup.sublist (hpage.map _) hsorted

/-- The types alone decide for which events a table is asked. -/
theorem eventId_mem_eventIdsOfTypes {events : List ListenerEvent}
    (hnodup : (events.map ListenerEvent.eventId).Nodup)
    {event : ListenerEvent} (hmem : event ∈ events)
    (eventTypes : List BeetsEventType) :
    event.eventId ∈ eventIdsOfTypes events eventTypes ↔
      event.eventType ∈ eventTypes := by
  rw [eventIdsOfTypes, List.mem_map]
  constructor
  · rintro ⟨other, hother, hid⟩
    rw [List.mem_filter, decide_eq_true_eq] at hother
    have hevents := List.inj_on_of_nodup_map hnodup
    rw [← hevents hother.1 hmem hid]
    exact hother.2
  · intro htype
    exact ⟨event, List.mem_filter.mpr ⟨hmem, decide_eq_true htype⟩, rfl⟩

/-- The listing goes event by event. -/
theorem listenerEventRecordsLookup_eq
    (hnodup : (db.listenerEvents.map ListenerEvent.eventId).Nodup)
    (offset limit : Nat) :
    db.listenerEventRecordsLookup offset limit =
      (db.recentListenerEvents offset limit).map db.listedRecord := by
  rw [EventsDb.listenerEventRecordsLookup]
  apply List.map_congr_left
  intro event hmem
  have hasked := eventId_mem_eventIdsOfTypes
    (nodup_recentListenerEvents hnodup offset limit) hmem
  have hpaths : event.eventType ∈ eventTypesWithPathRows ↔
      event.eventType = .importTaskFiles := List.mem_singleton
  simp only [EventsDb.listedRecord, appendImportReleaseSummaries_apply,
    group_apply, rowsOf_childRows, hasked, hpaths,
    EventsDb.albumRowsOf, EventsDb.trackRowsOf, EventsDb.sourcePathRowsOf,
    EventsDb.destinationPathRowsOf]
  by_cases hfiles : event.eventType = .importTaskFiles
  · simp [hfiles, eventTypesWithAlbumRows, eventTypesWithTrackRows]
  · by_cases halbum : event.eventType ∈ eventTypesWithAlbumRows <;>
      by_cases htrack : event.eventType ∈ eventTypesWithTrackRows <;>
        simp [hfiles, halbum, htrack]

end

/-- The type of the push is one for which every table it writes is asked. -/
def EventPush.Listed : EventPush → Prop
  | album albumEvent => albumEvent.eventType ∈ eventTypesWithAlbumRows
  | track trackEvent => trackEvent.eventType ∈ eventTypesWithTrackRows
  | filesystem fsEvent =>
      (fsEvent.eventType ∈ eventTypesWithTrackRows ∨
        fsEvent.importedItems = []) ∧
      (fsEvent.eventType ∈ eventTypesWithPathRows ∨
        fsEvent.sourcePaths = [] ∧
          (EventPush.filesystem fsEvent).destinationPaths = [])

section

variable {pushes : List EventPush} {k : Nat} {push : EventPush}

theorem listedRecord_eq_plainRecord_iff (hpush : pushes[k]? = some push) :
    (ledgerOf pushes).listedRecord (push.event (1 + k)) =
        (ledgerOf pushes).plainRecord (push.event (1 + k)) ↔
      push.Listed := by
  simp only [EventsDb.listedRecord, EventsDb.plainRecord, EventPush.event,
    albumRowsOf_event hpush, trackRowsOf_event hpush,
    sourcePathRowsOf_event hpush, destinationPathRowsOf_event hpush,
    ListenerEventDetails.mk.injEq, true_and]
  cases push with
  | album albumEvent =>
      cases htype : albumEvent.eventType <;>
        simp [EventPush.eventType, htype, EventPush.Listed,
          EventPush.albumRows, EventPush.trackRows,
          EventPush.sourcePathRows, EventPush.sourcePaths,
          EventPush.destinationPathRows, EventPush.destinationPaths,
          eventTypesWithAlbumRows, eventTypesWithTrackRows]
  | track trackEvent =>
      cases htype : trackEvent.eventType <;>
        simp [EventPush.eventType, htype, EventPush.Listed,
          EventPush.albumRows, EventPush.trackRows,
          EventPush.sourcePathRows, EventPush.sourcePaths,
          EventPush.destinationPathRows, EventPush.destinationPaths,
          eventTypesWithAlbumRows, eventTypesWithTrackRows]
  | filesystem fsEvent =>
      cases htype : fsEvent.eventType <;>
        simp [EventPush.eventType, htype, EventPush.Listed,
          EventPush.albumRows, EventPush.trackRows,
          EventPush.sourcePathRows, EventPush.sourcePaths,
          EventPush.destinationPathRows,
          eventTypesWithAlbumRows, eventTypesWithTrackRows,
          eventTypesWithPathRows]

/-- A page is the one the plain listing gives exactly if every push on it has
a type for which its tables are asked. -/
theorem lookup_eq_plainListing_iff (pushes : List EventPush)
    (offset limit : Nat) :
    (ledgerOf pushes).listenerEventRecordsLookup offset limit =
        (ledgerOf pushes).plainListing offset limit ↔
      ∀ (k : Nat) (push : EventPush), pushes[k]? = some push →
        push.event (1 + k) ∈
          (ledgerOf pushes).recentListenerEvents offset limit →
        push.Listed := by
  rw [listenerEventRecordsLookup_eq (nodup_eventIds pushes),
    EventsDb.plainListing, List.map_inj_left]
  constructor
  · intro hsame k push hpush hmem
    exact (listedRecord_eq_plainRecord_iff hpush).mp (hsame _ hmem)
  · intro hlisted event hmem
    obtain ⟨k, push, hpush, rfl⟩ :=
      mem_listenerEvents_iff.mp (mem_recentListenerEvents hmem)
    exact (listedRecord_eq_plainRecord_iff hpush).mpr
      (hlisted k push hpush hmem)

/-- The route for tracks takes a push of an album's type, and the track it
records is on no page. -/
theorem lookup_ne_plainListing_of_album_type :
    let pushes : List EventPush :=
      [.track ⟨.albumImported, ⟨0, 0⟩, ⟨7, "Album", some 3, [], "Song"⟩⟩]
    (ledgerOf pushes).plainListing 0 20 =
        [⟨.albumImported, 0, [], [⟨some 7, some "Song"⟩], [], []⟩] ∧
      (ledgerOf pushes).listenerEventRecordsLookup 0 20 ≠
        (ledgerOf pushes).plainListing 0 20 := by
  decide

end

/-- The point in time at which the push was made. -/
def EventPush.instant (push : EventPush) : Int :=
  push.pushedAt.wall - push.pushedAt.offset

/-- The point in time at which the push of an event was made. -/
def instantOf (pushes : List EventPush) (event : ListenerEvent) :
    Option Int :=
  pushes[event.eventId - 1]?.map EventPush.instant

/-- The distance `merge_import_event_records` compares. -/
def ListenerEventDetails.skew (details other : ListenerEventDetails) : Nat :=
  (details.pushedAt - other.pushedAt).natAbs

/-- The event whose push was made later is listed first, and of two made at
once the one recorded last. -/
def ListedByInstant (pushes : List EventPush)
    (event other : ListenerEvent) : Prop :=
  ∀ instant earlier, instantOf pushes event = some instant →
    instantOf pushes other = some earlier →
    earlier < instant ∨
      (earlier = instant ∧ other.eventId < event.eventId)

/-- The ledger keeps the points in time of the pushes: the column holds them,
every page is ordered by them, and its records are as far apart as they are. -/
structure KeepsInstants (pushes : List EventPush) : Prop where
  stored : ∀ event ∈ (ledgerOf pushes).listenerEvents,
    instantOf pushes event = some event.pushedAt
  ordered : ∀ offset limit,
    ((ledgerOf pushes).recentListenerEvents offset limit).Pairwise
      (ListedByInstant pushes)
  distances : ∀ offset limit,
    ∀ entry ∈ ((ledgerOf pushes).recentListenerEvents offset limit).zip
      ((ledgerOf pushes).listenerEventRecordsLookup offset limit),
    ∀ other ∈ ((ledgerOf pushes).recentListenerEvents offset limit).zip
      ((ledgerOf pushes).listenerEventRecordsLookup offset limit),
    ∀ instant later, instantOf pushes entry.1 = some instant →
      instantOf pushes other.1 = some later →
      entry.2.skew other.2 = (instant - later).natAbs

section

variable {pushes : List EventPush}

theorem instantOf_event {k : Nat} {push : EventPush}
    (hpush : pushes[k]? = some push) :
    instantOf pushes (push.event (1 + k)) = some push.instant := by
  rw [instantOf, EventPush.event, Nat.add_sub_cancel_left, hpush,
    Option.map_some]

/-- The column holds the fields on the clock, hence the point in time of the
pushes made in UTC and of no other. -/
theorem stored_iff :
    (∀ event ∈ (ledgerOf pushes).listenerEvents,
        instantOf pushes event = some event.pushedAt) ↔
      ∀ push ∈ pushes, push.pushedAt.offset = 0 := by
  constructor
  · intro hstored push hmem
    obtain ⟨k, hk, hpush⟩ := List.mem_iff_getElem.mp hmem
    have hget : pushes[k]? = some push := List.getElem?_eq_some_iff.mpr
      ⟨hk, hpush⟩
    have hevent := hstored (push.event (1 + k))
      (mem_listenerEvents_iff.mpr ⟨k, push, hget, rfl⟩)
    rw [instantOf_event hget] at hevent
    have hinstant : push.pushedAt.wall - push.pushedAt.offset =
      push.pushedAt.wall := Option.some.inj hevent
    omega
  · intro hutc event hmem
    obtain ⟨k, push, hpush, rfl⟩ := mem_listenerEvents_iff.mp hmem
    rw [instantOf_event hpush, EventPush.instant,
      hutc push (List.mem_of_getElem? hpush), Int.sub_zero]
    rfl

instance : IsTrans ListenerEvent ListenerEvent.ListedBefore where
  trans first second third hfirst hsecond := by
    unfold ListenerEvent.ListedBefore at *
    omega

instance : Std.Total ListenerEvent.ListedBefore where
  total event other := by
    unfold ListenerEvent.ListedBefore
    omega

theorem mem_zip_map {A B : Type} {f : A → B} {list : List A} {entry : A × B}
    (hmem : entry ∈ list.zip (list.map f)) :
    entry.1 ∈ list ∧ entry.2 = f entry.1 := by
  induction list with
  | nil => cases hmem
  | cons head rest ih =>
      rw [List.map_cons, List.zip_cons_cons, List.mem_cons] at hmem
      rcases hmem with rfl | hrest
      · exact ⟨List.mem_cons_self, rfl⟩
      · exact ⟨List.mem_cons_of_mem _ (ih hrest).1, (ih hrest).2⟩

/-- A page is ordered by what the column holds. -/
theorem recentListenerEvents_pairwise (pushes : List EventPush)
    (offset limit : Nat) :
    ((ledgerOf pushes).recentListenerEvents offset limit).Pairwise
      fun event other => event.ListedBefore other ∧
        event.eventId ≠ other.eventId := by
  apply List.Pairwise.and
  · have hsorted := List.pairwise_insertionSort ListenerEvent.ListedBefore
      (ledgerOf pushes).listenerEvents
    exact (hsorted.sublist (List.drop_sublist _ _)).sublist
      (List.take_sublist _ _)
  · exact List.pairwise_map.mp
      (nodup_recentListenerEvents (nodup_eventIds pushes) offset limit)

/-- The ledger keeps the points in time exactly if every push was made with
the offset of UTC. -/
theorem keepsInstants_iff (pushes : List EventPush) :
    KeepsInstants pushes ↔ ∀ push ∈ pushes, push.pushedAt.offset = 0 := by
  constructor
  · exact fun hkeeps => stored_iff.mp hkeeps.stored
  · intro hutc
    have hstored := stored_iff.mpr hutc
    refine ⟨hstored, ?_, ?_⟩
    · intro offset limit
      apply (recentListenerEvents_pairwise pushes offset limit).imp_of_mem
      intro event other hevent hother hlisted instant earlier
        hinstant hearlier
      rw [hstored event (mem_recentListenerEvents hevent)] at hinstant
      rw [hstored other (mem_recentListenerEvents hother)] at hearlier
      obtain rfl := Option.some.inj hinstant
      obtain rfl := Option.some.inj hearlier
      obtain ⟨hbefore, hids⟩ := hlisted
      unfold ListenerEvent.ListedBefore at hbefore
      omega
    · intro offset limit
      rw [listenerEventRecordsLookup_eq (nodup_eventIds pushes)]
      intro entry hentry other hother instant later hinstant hlater
      obtain ⟨hmem, hrecord⟩ := mem_zip_map hentry
      obtain ⟨hothermem, hotherrecord⟩ := mem_zip_map hother
      rw [hstored _ (mem_recentListenerEvents hmem)] at hinstant
      rw [hstored _ (mem_recentListenerEvents hothermem)] at hlater
      rw [hrecord, hotherrecord, ← Option.some.inj hinstant,
        ← Option.some.inj hlater]
      rfl

end

/-- A push from two hours east of UTC is listed before one made an hour
after it. -/
theorem keepsInstants_counterexample :
    let pushes : List EventPush :=
      [.track ⟨.trackImported, ⟨43200000000, 7200000000⟩,
        ⟨1, "", none, [], ""⟩⟩,
       .track ⟨.trackImported, ⟨39600000000, 0⟩, ⟨2, "", none, [], ""⟩⟩]
    (ledgerOf pushes).recentListenerEvents 0 20 =
        [⟨1, .trackImported, 43200000000⟩,
          ⟨2, .trackImported, 39600000000⟩] ∧
      pushes.map EventPush.instant = [36000000000, 39600000000] ∧
      ¬ KeepsInstants pushes := by
  refine ⟨by decide, by decide, fun hkeeps => ?_⟩
  have hfirst := hkeeps.stored ⟨1, .trackImported, 43200000000⟩ (by decide)
  exact absurd hfirst (by decide)

end Beetkeeper
