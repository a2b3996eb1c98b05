/-
The event ledger after any sequence of pushes: every push has the event of its
number, and each child table holds the rows of one push after the other.
-/
import Mathlib.Data.List.Induction
import Beetkeeper.EventRoutes
import Beetkeeper.GroupedRows

namespace Beetkeeper

open GroupedRows

/-- A push that one of the three routes takes; no route looks at the type. -/
inductive EventPush where
  | album (albumEvent : AlbumEventBody)
  | track (trackEvent : TrackEventBody)
  | filesystem (fsEvent : ImportTaskFilesEventBody)
deriving Repr, DecidableEq

namespace EventPush

def eventType : EventPush → BeetsEventType
  | album albumEvent => albumEvent.eventType
  | track trackEvent => trackEvent.eventType
  | filesystem fsEvent => fsEvent.eventType

def pushedAt : EventPush → AwareDatetime
  | album albumEvent => albumEvent.pushedAt
  | track trackEvent => trackEvent.pushedAt
  | filesystem fsEvent => fsEvent.pushedAt

/-- The row of `listener_event`. -/
def event (eventId : Nat) (push : EventPush) : ListenerEvent :=
  ⟨eventId, push.eventType, push.pushedAt.wall⟩

/-- The rows of `album_event`. -/
def albumRows (eventId : Nat) : EventPush → List AlbumEvent
  | album albumEvent => [⟨eventId, albumEvent.albumFields.id,
      nonEmpty? albumEvent.albumFields.album⟩]
  | track _ => []
  | filesystem _ => []

/-- The rows of `track_event`. -/
def trackRows (eventId : Nat) : EventPush → List TrackEvent
  | album _ => []
  | track trackEvent => [trackEventRow eventId trackEvent]
  | filesystem fsEvent => fsEvent.importedItems.map (trackEventRow eventId)

def sourcePaths : EventPush → List String
  | album _ => []
  | track _ => []
  | filesystem fsEvent => fsEvent.sourcePaths

def destinationPaths : EventPush → List String
  | album _ => []
  | track _ => []
  | filesystem fsEvent => (fsEvent.importedItems.map fun item =>
      decodedPath item.trackFields.path).filter (· ≠ "")

/-- The rows of `import_source_path`. -/
def sourcePathRows (eventId : Nat) (push : EventPush) :
    List ImportSourcePath :=
  push.sourcePaths.map (ImportSourcePath.mk eventId)

/-- The rows of `import_destination_path`. -/
def destinationPathRows (eventId : Nat) (push : EventPush) :
    List ImportDestinationPath :=
  push.destinationPaths.map (ImportDestinationPath.mk eventId)

theorem listenerEventId_of_mem_albumRows (eventId : Nat) (push : EventPush) :
    ∀ row ∈ push.albumRows eventId, row.listenerEventId = eventId := by
  cases push <;> simp [albumRows]

theorem listenerEventId_of_mem_trackRows (eventId : Nat) (push : EventPush) :
    ∀ row ∈ push.trackRows eventId, row.listenerEventId = eventId := by
  cases push <;> simp [trackRows, trackEventRow]

theorem listenerEventId_of_mem_sourcePathRows (eventId : Nat)
    (push : EventPush) :
    ∀ row ∈ push.sourcePathRows eventId, row.listenerEventId = eventId := by
  simp [sourcePathRows]

theorem listenerEventId_of_mem_destinationPathRows (eventId : Nat)
    (push : EventPush) :
    ∀ row ∈ push.destinationPathRows eventId,
      row.listenerEventId = eventId := by
  simp [destinationPathRows]

end EventPush

/-- The push arrives at its route. -/
def EventsDb.ingest (db : EventsDb) : EventPush → EventsDb
  | .album albumEvent => (db.album albumEvent).2
  | .track trackEvent => (db.track trackEvent).2
  | .filesystem fsEvent => (db.filesystem fsEvent).2

def EventsDb.empty : EventsDb := ⟨[], [], [], [], []⟩

/-- The ledger after the pushes, in the order in which they arrive. -/
def ledgerOf (pushes : List EventPush) : EventsDb :=
  pushes.foldl EventsDb.ingest .empty

section

variable (db : EventsDb) (eventId : Nat)

/-- The child rows of an event. -/
def EventsDb.albumRowsOf : List AlbumEvent :=
  rowsOf AlbumEvent.listenerEventId db.albumEvents eventId

def EventsDb.trackRowsOf : List TrackEvent :=
  rowsOf TrackEvent.listenerEventId db.trackEvents eventId

def EventsDb.sourcePathRowsOf : List ImportSourcePath :=
  rowsOf ImportSourcePath.listenerEventId db.importSourcePaths eventId

def EventsDb.destinationPathRowsOf : List ImportDestinationPath :=
  rowsOf ImportDestinationPath.listenerEventId db.importDestinationPaths
    eventId

end

/-- The tables hold the rows of the pushes, numbered from one. -/
structure Records (pushes : List EventPush) (db : EventsDb) : Prop where
  listenerEvents : db.listenerEvents =
    blocks (fun eventId push => [push.event eventId]) pushes 1
  albumEvents : db.albumEvents = blocks EventPush.albumRows pushes 1
  trackEvents : db.trackEvents = blocks EventPush.trackRows pushes 1
  sourcePaths : db.importSourcePaths =
    blocks EventPush.sourcePathRows pushes 1
  destinationPaths : db.importDestinationPaths =
    blocks EventPush.destinationPathRows pushes 1

theorem foldr_max_event (pushes : List EventPush) (start : Nat) :
    ((blocks (fun eventId push => [EventPush.event eventId push]) pushes
      (start + 1)).map ListenerEvent.eventId).foldr max start =
        start + pushes.length := by
  induction pushes generalizing start with
  | nil => rfl
  | cons push rest ih =>
      have hmax (ids : List Nat) :
          max (start + 1) (ids.foldr max start) =
            ids.foldr max (start + 1) := by
        have hassoc := @List.foldr_assoc Nat max _ ids start (start + 1)
        rw [Nat.max_eq_right (Nat.le_succ start)] at hassoc
        rw [hassoc, Nat.max_comm]
      rw [blocks_cons, List.singleton_append, List.map_cons, List.foldr_cons]
      exact (hmax _).trans ((ih (start + 1)).trans
        (Nat.add_right_comm start 1 rest.length))

/-- The next event gets the next number. -/
theorem Records.nextEventId {pushes : List EventPush} {db : EventsDb}
    (hrecords : Records pushes db) :
    db.nextEventId = 1 + pushes.length := by
  rw [EventsDb.nextEventId, hrecords.listenerEvents, foldr_max_event pushes 0]
  omega

/-- A push adds its own rows and touches no other. -/
theorem EventsDb.ingest_eq (db : EventsDb) (push : EventPush) :
    db.ingest push =
      ⟨db.listenerEvents ++ [push.event db.nextEventId],
        db.albumEvents ++ push.albumRows db.nextEventId,
        db.trackEvents ++ push.trackRows db.nextEventId,
        db.importSourcePaths ++ push.sourcePathRows db.nextEventId,
        db.importDestinationPaths ++
          push.destinationPathRows db.nextEventId⟩ := by
  cases push <;>
    simp [ingest, album, track, filesystem, recordListenerEvent,
      EventPush.event, EventPush.eventType, EventPush.pushedAt,
      EventPush.albumRows, EventPush.trackRows, EventPush.sourcePathRows,
      EventPush.sourcePaths, EventPush.destinationPathRows,
      EventPush.destinationPaths]

theorem Records.ingest {pushes : List EventPush} {db : EventsDb}
    (hrecords : Records pushes db) (push : EventPush) :
    Records (pushes ++ [push]) (db.ingest push) := by
  rw [EventsDb.ingest_eq, hrecords.nextEventId]
  constructor
  · rw [hrecords.listenerEvents, blocks_concat]
  · rw [hrecords.albumEvents, blocks_concat]
  · rw [hrecords.trackEvents, blocks_concat]
  · rw [hrecords.sourcePaths, blocks_concat]
  · rw [hrecords.destinationPaths, blocks_concat]

/-- After every sequence of pushes. -/
theorem records_ledgerOf (pushes : List EventPush) :
    Records pushes (ledgerOf pushes) := by
  induction pushes using List.reverseRecOn with
  | nil => exact ⟨rfl, rfl, rfl, rfl, rfl⟩
  | append_singleton pushes push ih =>
      rw [ledgerOf, List.foldl_append]
      exact ih.ingest push

section

variable {pushes : List EventPush}

theorem mem_listenerEvents_iff {event : ListenerEvent} :
    event ∈ (ledgerOf pushes).listenerEvents ↔
      ∃ k, ∃ push : EventPush, pushes[k]? = some push ∧
        event = push.event (1 + k) := by
  rw [(records_ledgerOf pushes).listenerEvents, mem_blocks_iff]
  simp only [List.mem_singleton]

theorem nodup_eventIds (pushes : List EventPush) :
    ((ledgerOf pushes).listenerEvents.map ListenerEvent.eventId).Nodup := by
  rw [(records_ledgerOf pushes).listenerEvents, List.Nodup,
    List.pairwise_map]
  refine pairwise_blocks (P := fun _ _ => True) ?_
    (List.pairwise_of_forall fun _ _ => trivial) 1
  intro n m push later hlt _
  exact Nat.ne_of_lt hlt

variable {k : Nat} {push : EventPush}

/-- The child rows of an event are those its own push wrote. -/
theorem albumRowsOf_event (hpush : pushes[k]? = some push) :
    (ledgerOf pushes).albumRowsOf (1 + k) = push.albumRows (1 + k) := by
  rw [EventsDb.albumRowsOf, (records_ledgerOf pushes).albumEvents]
  exact rowsOf_blocks EventPush.listenerEventId_of_mem_albumRows hpush

theorem trackRowsOf_event (hpush : pushes[k]? = some push) :
    (ledgerOf pushes).trackRowsOf (1 + k) = push.trackRows (1 + k) := by
  rw [EventsDb.trackRowsOf, (records_ledgerOf pushes).trackEvents]
  exact rowsOf_blocks EventPush.listenerEventId_of_mem_trackRows hpush

theorem sourcePathRowsOf_event (hpush : pushes[k]? = some push) :
    (ledgerOf pushes).sourcePathRowsOf (1 + k) =
        push.sourcePathRows (1 + k) := by
  rw [EventsDb.sourcePathRowsOf, (records_ledgerOf pushes).sourcePaths]
  exact rowsOf_blocks EventPush.listenerEventId_of_mem_sourcePathRows hpush

theorem destinationPathRowsOf_event (hpush : pushes[k]? = some push) :
    (ledgerOf pushes).destinationPathRowsOf (1 + k) =
        push.destinationPathRows (1 + k) := by
  rw [EventsDb.destinationPathRowsOf,
    (records_ledgerOf pushes).destinationPaths]
  exact rowsOf_blocks EventPush.listenerEventId_of_mem_destinationPathRows
    hpush

end

end Beetkeeper
