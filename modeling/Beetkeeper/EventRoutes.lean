/-
The tables of the event ledger, and the routes that record a push in them.
-/
import Beetkeeper.EventModels

namespace Beetkeeper

/-- A datetime column keeps the fields on the clock and drops the offset. -/
structure ListenerEvent where
  eventId : Nat
  eventType : BeetsEventType
  pushedAt : Int
deriving Repr, DecidableEq

structure AlbumEvent where
  listenerEventId : Nat
  beetsAlbumId : Int
  albumName : Option String
deriving Repr, DecidableEq

structure TrackEvent where
  listenerEventId : Nat
  beetsItemId : Int
  beetsAlbumId : Option Int
  trackTitle : Option String
  albumName : Option String
deriving Repr, DecidableEq

structure ImportSourcePath where
  listenerEventId : Nat
  sourcePath : String
deriving Repr, DecidableEq

structure ImportDestinationPath where
  listenerEventId : Nat
  destinationPath : String
deriving Repr, DecidableEq

/-- The rows of each table, in the order of their ids. -/
structure EventsDb where
  listenerEvents : List ListenerEvent
  albumEvents : List AlbumEvent
  trackEvents : List TrackEvent
  importSourcePaths : List ImportSourcePath
  importDestinationPaths : List ImportDestinationPath
deriving Repr, DecidableEq

structure EventIngestResponse where
  eventType : BeetsEventType
  ingestedId : Option Int
  errorMsg : Option String
deriving Repr, DecidableEq

structure MultiItemEventIngestResponse where
  eventType : BeetsEventType
  eventIngestResponses : List EventIngestResponse
deriving Repr, DecidableEq

/-- The id SQLite gives the next row. -/
def EventsDb.nextEventId (db : EventsDb) : Nat :=
  (db.listenerEvents.map ListenerEvent.eventId).foldr max 0 + 1

/-- `_record_listener_event`. -/
def EventsDb.recordListenerEvent (db : EventsDb) (eventType : BeetsEventType)
    (pushedAt : AwareDatetime) : Nat × EventsDb :=
  (db.nextEventId,
    { db with listenerEvents := db.listenerEvents ++
        [⟨db.nextEventId, eventType, pushedAt.wall⟩] })

/-- `value or None`. -/
def nonEmpty? (value : String) : Option String :=
  if value = "" then none else some value

/-- `_track_event_row`. -/
def trackEventRow (listenerEventId : Nat) (trackEvent : TrackEventBody) :
    TrackEvent where
  listenerEventId := listenerEventId
  beetsItemId := trackEvent.trackFields.id
  beetsAlbumId := trackEvent.trackFields.albumId
  trackTitle := nonEmpty? trackEvent.trackFields.title
  albumName := nonEmpty? trackEvent.trackFields.album

/-- `path.decode("utf-8", errors="replace")`. -/
def decodedPath (path : List UInt8) : String :=
  String.ofList (Utf8.decodeReplace path)

def ingested (item : TrackEventBody) : EventIngestResponse :=
  ⟨item.eventType, some item.trackFields.id, none⟩

/-- The route `album`. -/
def EventsDb.album (db : EventsDb) (albumEvent : AlbumEventBody) :
    EventIngestResponse × EventsDb :=
  match db.recordListenerEvent albumEvent.eventType albumEvent.pushedAt with
  | (listenerEventId, recorded) =>
      (⟨albumEvent.eventType, some albumEvent.albumFields.id, none⟩,
        { recorded with albumEvents := recorded.albumEvents ++
            [⟨listenerEventId, albumEvent.albumFields.id,
              nonEmpty? albumEvent.albumFields.album⟩] })

/-- The route `track`. -/
def EventsDb.track (db : EventsDb) (trackEvent : TrackEventBody) :
    EventIngestResponse × EventsDb :=
  match db.recordListenerEvent trackEvent.eventType trackEvent.pushedAt with
  | (listenerEventId, recorded) =>
      (ingested trackEvent,
        { recorded with trackEvents := recorded.trackEvents ++
            [trackEventRow listenerEventId trackEvent] })

/-- The route `filesystem`. -/
def EventsDb.filesystem (db : EventsDb) (fsEvent : ImportTaskFilesEventBody) :
    MultiItemEventIngestResponse × EventsDb :=
  match db.recordListenerEvent fsEvent.eventType fsEvent.pushedAt with
  | (listenerEventId, recorded) =>
      (⟨fsEvent.eventType, fsEvent.importedItems.map ingested⟩,
        { recorded with
          importSourcePaths := recorded.importSourcePaths ++
            fsEvent.sourcePaths.map (ImportSourcePath.mk listenerEventId)
          importDestinationPaths := recorded.importDestinationPaths ++
            ((fsEvent.importedItems.map fun item =>
                decodedPath item.trackFields.path).filter (· ≠ "")).map
              (ImportDestinationPath.mk listenerEventId)
          trackEvents := recorded.trackEvents ++
            fsEvent.importedItems.map (trackEventRow listenerEventId) })

/-- A push to `/api/events/filesystem`; a body the model does not take is
answered with 422 and leaves the tables alone. -/
def EventsDb.postFilesystem (pydantic : Pydantic) (db : EventsDb)
    (body : PyValue) : Option (MultiItemEventIngestResponse × EventsDb) :=
  (ImportTaskFilesEventBody.validate pydantic body).map db.filesystem

end Beetkeeper
