/-
Looking events up by the id of an album, of a track or of the event itself.
The statements leave the rows of one event in any order; what an album or a
track is looked up by comes out the same nevertheless, page by page.
-/
import Beetkeeper.EventListing
import Beetkeeper.JobListing

namespace Beetkeeper

open GroupedRows

/-- The child table an event is joined with: `join_events_table`. -/
inductive SubjectTable where
  | album
  | track
deriving Repr, DecidableEq

/-- The ids of the albums or of the tracks the children of events are about,
each with the id of its event. -/
def EventsDb.subjectRows (db : EventsDb) : SubjectTable → List (Nat × Int)
  | .album => db.albumEvents.map fun row =>
      (row.listenerEventId, row.beetsAlbumId)
  | .track => db.trackEvents.map fun row =>
      (row.listenerEventId, row.beetsItemId)

/-- `JOIN listener_event`. -/
def EventsDb.joinEvents (db : EventsDb) (children : List (Nat × Int)) :
    List (ListenerEvent × Int) :=
  children.flatMap fun child =>
    (db.listenerEvents.filter fun event => decide
      (event.eventId = child.1)).map fun event => (event, child.2)

/-- `ORDER BY pushed_at DESC, event_id DESC`, which says nothing of the rows of
one event. -/
structure RowOrder where
  sort : List (ListenerEvent × Int) → List (ListenerEvent × Int)
  perm : ∀ rows, (sort rows).Perm rows
  sorted : ∀ rows, (sort rows).Pairwise fun row other =>
    row.1.ListedBefore other.1

structure EventSearchResult (S : Type) where
  eventId : Nat
  eventType : BeetsEventType
  eventTime : Int
  beetsId : Int
  currentBeetsSubjectState : Option S
deriving Repr, DecidableEq

/-- What the library holds under an id now: the model of its entry, or the
exception of a model that does not take the entry. -/
abbrev SubjectLibrary (S : Type) :=
  SubjectTable → Int → Option (Except String S)

section Lookup

variable {S : Type}

/-- The state of a subject; none if it is not in the library any more. -/
def subjectState (library : SubjectLibrary S) (table : SubjectTable)
    (beetsId : Int) : Except String (Option S) :=
  match library table beetsId with
  | none => .ok none
  | some (.error error) => .error error
  | some (.ok state) => .ok (some state)

/-- The results of `_query_listener_event_join`. -/
def searchResults (library : SubjectLibrary S) (table : SubjectTable)
    (rows : List (ListenerEvent × Int)) :
    Except String (List (EventSearchResult S)) :=
  rows.mapM fun row =>
    (subjectState library table row.2).map fun state =>
      ⟨row.1.eventId, row.1.eventType, row.1.pushedAt, row.2, state⟩

/-- The result of a row whose entry the model takes. -/
def rowResult (library : SubjectLibrary S) (table : SubjectTable)
    (row : ListenerEvent × Int) : EventSearchResult S where
  eventId := row.1.eventId
  eventType := row.1.eventType
  eventTime := row.1.pushedAt
  beetsId := row.2
  currentBeetsSubjectState := (library table row.2).bind Except.toOption

inductive EventLookupEntityType where
  | album
  | track
  | bkevent
deriving Repr, DecidableEq

/-- The rows of `_query_listener_event_join`. -/
def EventsDb.joinedSubjects (db : EventsDb) (order : RowOrder)
    (table : SubjectTable) (condition : Nat × Int → Bool) :
    List (ListenerEvent × Int) :=
  order.sort (db.joinEvents ((db.subjectRows table).filter condition))

/-- `listener_event_lookup_by_type_and_id`; the routes take no negative id. -/
def EventsDb.listenerEventLookup (db : EventsDb) (order : RowOrder)
    (library : SubjectLibrary S) (entityId : Nat) (params : PageQueryParams) :
    EventLookupEntityType → Except String (List (EventSearchResult S))
  | .album => searchResults library .album (params.slice
      (db.joinedSubjects order .album fun child =>
        decide (child.2 = entityId)))
  | .track => searchResults library .track (params.slice
      (db.joinedSubjects order .track fun child =>
        decide (child.2 = entityId)))
  | .bkevent => do
      let albumResults ← searchResults library .album
        (db.joinedSubjects order .album fun child =>
          decide (child.1 = entityId))
      let trackResults ← searchResults library .track
        (db.joinedSubjects order .track fun child =>
          decide (child.1 = entityId))
      return params.slice (albumResults ++ trackResults)

/-- The route an album or a track is looked up by. -/
def SubjectTable.entityType : SubjectTable → EventLookupEntityType
  | album => .album
  | track => .track

namespace EventPush

/-- The albums or the tracks a push is about, as far as its tables go. -/
def subjectIds : SubjectTable → EventPush → List Int
  | .album, album albumEvent => [albumEvent.albumFields.id]
  | .track, track trackEvent => [trackEvent.trackFields.id]
  | .track, filesystem fsEvent => fsEvent.importedItems.map fun item =>
      item.trackFields.id
  | _, _ => []

/-- What a push is found as. -/
def searchResult (library : SubjectLibrary S) (table : SubjectTable)
    (eventId : Nat) (push : EventPush) (beetsId : Int) :
    EventSearchResult S :=
  rowResult library table (push.event eventId, beetsId)

end EventPush

/-- Newest first. -/
def EventSearchResult.ListedBefore (result other : EventSearchResult S) :
    Prop :=
  other.eventTime < result.eventTime ∨
    (other.eventTime = result.eventTime ∧ other.eventId ≤ result.eventId)

end Lookup

section Ledger

variable {pushes : List EventPush} {k : Nat} {push : EventPush}

theorem subjectRows_ledgerOf (pushes : List EventPush)
    (table : SubjectTable) :
    (ledgerOf pushes).subjectRows table =
      blocks (fun eventId push => (push.subjectIds table).map
        (Prod.mk eventId)) pushes 1 := by
  cases table with
  | album =>
      rw [EventsDb.subjectRows, (records_ledgerOf pushes).albumEvents, blocks,
        List.map_flatMap]
      refine List.flatMap_congr fun entry _ => ?_
      cases entry.1 <;> rfl
  | track =>
      rw [EventsDb.subjectRows, (records_ledgerOf pushes).trackEvents, blocks,
        List.map_flatMap]
      refine List.flatMap_congr fun entry _ => ?_
      cases entry.1 with
      | filesystem fsEvent =>
          simp only [EventPush.trackRows, EventPush.subjectIds, List.map_map]
          rfl
      | _ => rfl

/-- A child is joined with the event of its push. -/
theorem events_of_push (hpush : pushes[k]? = some push) :
    ((ledgerOf pushes).listenerEvents.filter fun event => decide
      (event.eventId = 1 + k)) = [push.event (1 + k)] := by
  rw [(records_ledgerOf pushes).listenerEvents]
  refine rowsOf_blocks (fun n record row hrow => ?_) hpush
  rw [List.mem_singleton.mp hrow]
  rfl

/-- The rows of a lookup, push by push. -/
theorem joinEvents_ledgerOf (pushes : List EventPush) (table : SubjectTable)
    (condition : Nat × Int → Bool) :
    (ledgerOf pushes).joinEvents
        (((ledgerOf pushes).subjectRows table).filter condition) =
      blocks (fun eventId push => ((push.subjectIds table).filter fun beetsId =>
        condition (eventId, beetsId)).map (Prod.mk (push.event eventId)))
        pushes 1 := by
  rw [subjectRows_ledgerOf, EventsDb.joinEvents, filter_blocks,
    flatMap_blocks]
  apply blocks_congr
  intro k push hpush
  rw [List.filter_map, List.flatMap_map]
  simp only [events_of_push hpush, List.map_singleton]
  exact List.map_eq_flatMap.symm

end Ledger

section Results

variable {S : Type} {library : SubjectLibrary S} {table : SubjectTable}

theorem searchResults_ok {rows : List (ListenerEvent × Int)}
    (hvalid : ∀ row ∈ rows, ∀ error, library table row.2 ≠
      some (.error error)) :
    searchResults library table rows =
      .ok (rows.map (rowResult library table)) := by
  induction rows with
  | nil => rfl
  | cons row rest ih =>
      have hrest := ih fun other hother =>
        hvalid other (List.mem_cons_of_mem _ hother)
      have hhead : (subjectState library table row.2).map (fun state =>
          (⟨row.1.eventId, row.1.eventType, row.1.pushedAt, row.2, state⟩ :
            EventSearchResult S)) = .ok (rowResult library table row) := by
        have hstate := hvalid row List.mem_cons_self
        rw [subjectState, rowResult]
        cases hentry : library table row.2 with
        | none => rfl
        | some found =>
            cases found with
            | error error => exact absurd hentry (hstate error)
            | ok state => rfl
      rw [searchResults] at hrest ⊢
      rw [List.mapM_cons, hhead, hrest]
      rfl

end Results

instance : DecidableRel fun row other : ListenerEvent × Int =>
    row.1.ListedBefore other.1 := fun row other =>
  inferInstanceAs (Decidable (row.1.ListedBefore other.1))

instance : IsTrans (ListenerEvent × Int) fun row other =>
    row.1.ListedBefore other.1 where
  trans row other last :=
    IsTrans.trans (r := ListenerEvent.ListedBefore) row.1 other.1 last.1

instance : Std.Total fun row other : ListenerEvent × Int =>
    row.1.ListedBefore other.1 where
  total row other := Std.Total.total row.1 other.1

/-- Rows of one event in the order of their ids. -/
def RowOrder.byId : RowOrder where
  sort rows := rows.insertionSort fun row other => row.1.ListedBefore other.1
  perm := List.perm_insertionSort _
  sorted := List.pairwise_insertionSort _

/-- Where only equal rows can change places, there is one order. -/
theorem RowOrder.sort_eq (order other : RowOrder)
    {rows : List (ListenerEvent × Int)}
    (hties : ∀ row ∈ rows, ∀ second ∈ rows, row.1.ListedBefore second.1 →
      second.1.ListedBefore row.1 → row = second) :
    order.sort rows = other.sort rows := by
  refine List.Perm.eq_of_pairwise ?_ (order.sorted rows) (other.sorted rows)
    ((order.perm rows).trans (other.perm rows).symm)
  intro row second hrow hsecond
  exact hties row ((order.perm rows).mem_iff.mp hrow) second
    ((other.perm rows).mem_iff.mp hsecond)

section Lookups

variable {S : Type}

/-- A lookup by the id of an album or a track finds each push that is about
it, once for each time it names the id, the newest first; and however the
statements order the rows of one event, its pages are those of one list. -/
theorem lookups_list_pushes (pushes : List EventPush)
    (library : SubjectLibrary S) (table : SubjectTable) (beetsId : Nat)
    (hvalid : ∀ error, library table beetsId ≠ some (.error error)) :
    ∃ found : List (EventSearchResult S),
      found.Perm (blocks (fun eventId push =>
        ((push.subjectIds table).filter fun id => decide
          (id = (beetsId : Int))).map (push.searchResult library table eventId))
        pushes 1) ∧
      found.Pairwise EventSearchResult.ListedBefore ∧
      ∀ order params, (ledgerOf pushes).listenerEventLookup order library
        beetsId params table.entityType = .ok (params.slice found) := by
  let rows := (ledgerOf pushes).joinEvents
    (((ledgerOf pushes).subjectRows table).filter fun child =>
      decide (child.2 = (beetsId : Int)))
  have hrows : rows = blocks (fun eventId push =>
      ((push.subjectIds table).filter fun id => decide
        (id = (beetsId : Int))).map (Prod.mk (push.event eventId)))
      pushes 1 :=
    joinEvents_ledgerOf pushes table _
  have hmem : ∀ row ∈ rows,
      row.1 ∈ (ledgerOf pushes).listenerEvents ∧ row.2 = beetsId := by
    intro row hrow
    rw [hrows, mem_blocks_iff] at hrow
    obtain ⟨k, push, hpush, hrow⟩ := hrow
    obtain ⟨id, hid, rfl⟩ := List.mem_map.mp hrow
    exact ⟨mem_listenerEvents_iff.mpr ⟨k, push, hpush, rfl⟩,
      of_decide_eq_true (List.mem_filter.mp hid).2⟩
  have hone : ∀ order : RowOrder,
      order.sort rows = RowOrder.byId.sort rows := by
    intro order
    refine order.sort_eq .byId fun row hrow second hsecond hle hge => ?_
    have hid : row.1.eventId = second.1.eventId := by
      unfold ListenerEvent.ListedBefore at hle hge
      omega
    exact Prod.ext (List.inj_on_of_nodup_map (nodup_eventIds pushes)
      (hmem row hrow).1 (hmem second hsecond).1 hid)
      ((hmem row hrow).2.trans (hmem second hsecond).2.symm)
  refine ⟨(RowOrder.byId.sort rows).map (rowResult library table), ?_, ?_, ?_⟩
  · refine ((RowOrder.byId.perm rows).map _).trans (.of_eq ?_)
    rw [hrows, blocks, List.map_flatMap]
    refine List.flatMap_congr fun entry _ => ?_
    rw [List.map_map]
    rfl
  · exact List.pairwise_map.mpr (RowOrder.byId.sorted rows)
  · intro order params
    have hpage : (ledgerOf pushes).listenerEventLookup order library beetsId
        params table.entityType = searchResults library table
          (params.slice (RowOrder.byId.sort rows)) := by
      rw [← hone order]
      cases table <;> rfl
    rw [hpage, searchResults_ok]
    · rw [PageQueryParams.slice, Paging.map_page]
      rfl
    · intro row hrow error
      have hsorted : row ∈ RowOrder.byId.sort rows :=
        List.mem_of_mem_drop (List.mem_of_mem_take hrow)
      rw [(hmem row ((RowOrder.byId.perm rows).mem_iff.mp hsorted)).2]
      exact hvalid error

/-- An import that names one track twice, and the track's removal. -/
def songPushes : List EventPush :=
  [.filesystem ⟨.importTaskFiles, ⟨0, 0⟩, some "APPLY", ["/in"],
      [⟨.importTaskFiles, ⟨0, 0⟩, ⟨7, "Album", some 5, [], "Song"⟩⟩,
        ⟨.importTaskFiles, ⟨0, 0⟩, ⟨7, "Album", some 5, [], "Song"⟩⟩]⟩,
    .track ⟨.trackRemoved, ⟨60, 0⟩, ⟨7, "Album", some 5, [], "Song"⟩⟩]

/-- A library without the track. -/
def withoutSong : SubjectLibrary String := fun _ _ => none

theorem lookups_list_pushes_song :
    ∃ found : List (EventSearchResult String),
      found.Perm (blocks (fun eventId push =>
        ((push.subjectIds .track).filter fun id => decide
          (id = ((7 : Nat) : Int))).map
            (push.searchResult withoutSong .track eventId)) songPushes 1) ∧
      found.Pairwise EventSearchResult.ListedBefore ∧
      ∀ order params, (ledgerOf songPushes).listenerEventLookup order
        withoutSong 7 params .track = .ok (params.slice found) :=
  lookups_list_pushes songPushes withoutSong .track 7 nofun

/-- The rows a query by the id of an event returns. -/
theorem joinedSubjects_event {pushes : List EventPush} {k : Nat}
    {push : EventPush} (hpush : pushes[k]? = some push)
    (table : SubjectTable) :
    (ledgerOf pushes).joinEvents (((ledgerOf pushes).subjectRows table).filter
        fun child => decide (child.1 = 1 + k)) =
      (push.subjectIds table).map (Prod.mk (push.event (1 + k))) := by
  have hchildren : ((ledgerOf pushes).subjectRows table).filter
      (fun child => decide (child.1 = 1 + k)) =
        (push.subjectIds table).map (Prod.mk (1 + k)) := by
    rw [subjectRows_ledgerOf]
    refine rowsOf_blocks (fun n record row hrow => ?_) hpush
    obtain ⟨id, _, rfl⟩ := List.mem_map.mp hrow
    rfl
  rw [hchildren, EventsDb.joinEvents, List.flatMap_map]
  simp only [events_of_push hpush, List.map_singleton]
  exact List.map_eq_flatMap.symm

/-- A lookup by the id of an event reads back what was pushed: its album
first, then its tracks, each as it is now. -/
theorem event_id_reads_back_push (pushes : List EventPush) (k : Nat)
    (push : EventPush) (hpush : pushes[k]? = some push)
    (library : SubjectLibrary S)
    (hvalid : ∀ table, ∀ id ∈ push.subjectIds table, ∀ error,
      library table id ≠ some (.error error)) (order : RowOrder) :
    ∃ albums tracks : List (EventSearchResult S),
      albums.Perm ((push.subjectIds .album).map
        (push.searchResult library .album (1 + k))) ∧
      tracks.Perm ((push.subjectIds .track).map
        (push.searchResult library .track (1 + k))) ∧
      ∀ params, (ledgerOf pushes).listenerEventLookup order library (1 + k)
        params .bkevent = .ok (params.slice (albums ++ tracks)) := by
  have hresults : ∀ table, ∃ results : List (EventSearchResult S),
      results.Perm ((push.subjectIds table).map
        (push.searchResult library table (1 + k))) ∧
      searchResults library table ((ledgerOf pushes).joinedSubjects order
        table fun child => decide (child.1 = 1 + k)) = .ok results := by
    intro table
    rw [EventsDb.joinedSubjects, joinedSubjects_event hpush]
    refine ⟨_, ?_, searchResults_ok ?_⟩
    · refine ((order.perm _).map _).trans (.of_eq ?_)
      rw [List.map_map]
      rfl
    · intro row hrow
      obtain ⟨id, hid, rfl⟩ := List.mem_map.mp
        ((order.perm _).mem_iff.mp hrow)
      exact hvalid table id hid
  obtain ⟨albums, halbums, hfindAlbums⟩ := hresults .album
  obtain ⟨tracks, htracks, hfindTracks⟩ := hresults .track
  refine ⟨albums, tracks, halbums, htracks, fun params => ?_⟩
  rw [EventsDb.listenerEventLookup, hfindAlbums, hfindTracks]
  rfl

theorem event_id_reads_back_push_song :
    ∃ albums tracks : List (EventSearchResult String),
      albums.Perm [] ∧
      tracks.Perm [⟨1, .importTaskFiles, 0, 7, none⟩,
        ⟨1, .importTaskFiles, 0, 7, none⟩] ∧
      ∀ params, (ledgerOf songPushes).listenerEventLookup RowOrder.byId
        withoutSong (1 + 0) params .bkevent =
          .ok (params.slice (albums ++ tracks)) :=
  event_id_reads_back_push songPushes 0 _ rfl withoutSong nofun .byId

end Lookups

end Beetkeeper
