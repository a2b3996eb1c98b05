/-
The source paths recorded for an entry, looked up by its id alone: what was
recorded for a removed entry is offered to the one that gets its id next.
-/
import Mathlib.Data.List.Sort
import Beetkeeper.EventLedger

namespace Beetkeeper

open GroupedRows

/-- The column of `track_event` the lookup goes by. -/
inductive KeyColumn where
  | beetsItemId
  | beetsAlbumId
deriving Repr, DecidableEq

def KeyColumn.ofRow : KeyColumn → TrackEvent → Option Int
  | beetsItemId, row => some row.beetsItemId
  | beetsAlbumId, row => row.beetsAlbumId

/-- A row of the join, with the columns it is ordered by. -/
structure SourcePathRow where
  listenerEventId : Nat
  sourcePathId : Nat
  key : Int
  sourcePath : String
deriving Repr, DecidableEq

/-- `ORDER BY track_event.listener_event_id DESC, import_source_path.id`. -/
def SourcePathRow.Before (row other : SourcePathRow) : Prop :=
  other.listenerEventId < row.listenerEventId ∨
    (other.listenerEventId = row.listenerEventId ∧
      row.sourcePathId ≤ other.sourcePathId)

instance : DecidableRel SourcePathRow.Before := fun row other => by
  unfold SourcePathRow.Before
  infer_instance

/-- The rows of one track row. -/
def joinRow (column : KeyColumn) (keys : List Int)
    (sourcePaths : List (ImportSourcePath × Nat)) (trackRow : TrackEvent) :
    List SourcePathRow :=
  match column.ofRow trackRow with
  | none => []
  | some key =>
      if key ∈ keys then
        (sourcePaths.filter fun entry =>
          entry.1.listenerEventId = trackRow.listenerEventId).map
            fun entry => ⟨trackRow.listenerEventId, entry.2, key,
              entry.1.sourcePath⟩
      else []

/-- `track_event JOIN import_source_path` on the event, for the keys. -/
def EventsDb.joinedRows (db : EventsDb) (column : KeyColumn)
    (keys : List Int) : List SourcePathRow :=
  db.trackEvents.flatMap
    (joinRow column keys (db.importSourcePaths.zipIdx 1))

/-- `_import_source_paths_by_key`; a key without paths reads as the empty
list. -/
def EventsDb.importSourcePathsByKey (db : EventsDb) (column : KeyColumn)
    (keys : List Int) : Int → List String :=
  if keys = [] then fun _ => []
  else
    ((db.joinedRows column keys).insertionSort SourcePathRow.Before).foldl
      (fun sourcePathsByKey row => set sourcePathsByKey row.key
        (appendNew (sourcePathsByKey row.key) row.sourcePath))
      fun _ => []

def EventsDb.importSourcePathsByTrackId (db : EventsDb) :
    List Int → Int → List String :=
  db.importSourcePathsByKey .beetsItemId

def EventsDb.importSourcePathsByAlbumId (db : EventsDb) :
    List Int → Int → List String :=
  db.importSourcePathsByKey .beetsAlbumId

def KeyColumn.ofItem : KeyColumn → TrackEventBody → Option Int
  | beetsItemId, item => some item.trackFields.id
  | beetsAlbumId, item => item.trackFields.albumId

/-- The push is an import of the entry, from the path. -/
def ImportsFrom (column : KeyColumn) (key : Int) (path : String)
    (pushes : List EventPush) (k : Nat) : Prop :=
  ∃ fsEvent, pushes[k]? = some (.filesystem fsEvent) ∧
    path ∈ fsEvent.sourcePaths ∧
    ∃ item ∈ fsEvent.importedItems, column.ofItem item = some key

/-- The push is the removal of the entry. -/
def Removes (column : KeyColumn) (key : Int) (pushes : List EventPush)
    (k : Nat) : Prop :=
  match column with
  | .beetsAlbumId => ∃ albumEvent, pushes[k]? = some (.album albumEvent) ∧
      albumEvent.eventType = .albumRemoved ∧ albumEvent.albumFields.id = key
  | .beetsItemId => ∃ trackEvent, pushes[k]? = some (.track trackEvent) ∧
      trackEvent.eventType = .trackRemoved ∧ trackEvent.trackFields.id = key

/-- The path comes from an import after every removal of the entry. -/
def ImportedSinceRemoval (column : KeyColumn) (key : Int) (path : String)
    (pushes : List EventPush) : Prop :=
  ∃ k, ImportsFrom column key path pushes k ∧
    ∀ removal, Removes column key pushes removal → removal < k

section

variable {pushes : List EventPush} {column : KeyColumn} {keys : List Int}

theorem importSourcePathsByKey_apply (db : EventsDb) (column : KeyColumn)
    {keys : List Int} (key : Int) :
    db.importSourcePathsByKey column keys key =
      distinct SourcePathRow.sourcePath (rowsOf SourcePathRow.key
        ((db.joinedRows column keys).insertionSort SourcePathRow.Before)
        key) := by
  rw [EventsDb.importSourcePathsByKey]
  by_cases hnone : keys = []
  · subst hnone
    have hempty : db.joinedRows column [] = [] := by
      rw [EventsDb.joinedRows, List.flatMap_eq_nil_iff]
      intro trackRow _
      rw [joinRow]
      split <;> simp
    rw [if_pos rfl, hempty]
    rfl
  · rw [if_neg hnone]
    have hgroups := foldl_set_apply SourcePathRow.key (fun _ => true)
      (fun values row => appendNew values row.sourcePath)
      ((db.joinedRows column keys).insertionSort SourcePathRow.Before)
      (fun _ => []) key
    simp only [if_true, Bool.and_true] at hgroups
    exact hgroups

theorem ofRow_trackEventRow (column : KeyColumn) (eventId : Nat)
    (item : TrackEventBody) :
    column.ofRow (trackEventRow eventId item) = column.ofItem item := by
  cases column <;> rfl

theorem mem_joinRow_iff {sourcePaths : List (ImportSourcePath × Nat)}
    {trackRow : TrackEvent} {row : SourcePathRow} :
    row ∈ joinRow column keys sourcePaths trackRow ↔
      ∃ key ∈ keys, column.ofRow trackRow = some key ∧
        ∃ entry ∈ sourcePaths,
          entry.1.listenerEventId = trackRow.listenerEventId ∧
          row = ⟨trackRow.listenerEventId, entry.2, key,
            entry.1.sourcePath⟩ := by
  rw [joinRow]
  cases hkey : column.ofRow trackRow with
  | none => simp
  | some key =>
      by_cases hmem : key ∈ keys
      · simp [hmem, and_assoc, eq_comm]
      · simp only [if_neg hmem, List.not_mem_nil, false_iff]
        rintro ⟨other, hother, hsame, -⟩
        exact hmem (Option.some.inj hsame ▸ hother)

theorem mem_zipIdx_fst {A : Type} {list : List A} {a : A} {start : Nat} :
    (∃ entry ∈ list.zipIdx start, entry.1 = a) ↔ a ∈ list := by
  conv_rhs => rw [← List.zipIdx_map_fst start list]
  exact List.mem_map.symm

/-- A track row and a source path of one event come from the push of an import
task. -/
theorem filesystem_of_rows {k : Nat} {push : EventPush} {path : String}
    {trackRow : TrackEvent} (htrack : trackRow ∈ push.trackRows (1 + k))
    (hpath : path ∈ push.sourcePaths) :
    ∃ fsEvent, push = .filesystem fsEvent ∧ path ∈ fsEvent.sourcePaths ∧
      ∃ item ∈ fsEvent.importedItems, trackEventRow (1 + k) item = trackRow := by
  cases push with
  | album albumEvent => cases hpath
  | track trackEvent => cases hpath
  | filesystem fsEvent =>
      exact ⟨fsEvent, rfl, hpath, List.mem_map.mp htrack⟩

/-- The rows of the join are those of the imports. -/
theorem mem_joinedRows_iff {key : Int} {path : String} {eventId : Nat} :
    (∃ row ∈ (ledgerOf pushes).joinedRows column keys, row.key = key ∧
        row.sourcePath = path ∧ row.listenerEventId = eventId) ↔
      key ∈ keys ∧ ∃ k, eventId = 1 + k ∧
        ImportsFrom column key path pushes k := by
  have htracks := (records_ledgerOf pushes).trackEvents
  have hpaths := (records_ledgerOf pushes).sourcePaths
  constructor
  · rintro ⟨row, hrow, rfl, rfl, rfl⟩
    obtain ⟨trackRow, htrackRow, hjoin⟩ := List.mem_flatMap.mp hrow
    obtain ⟨key, hkey, hcolumn, entry, hentry, hevent, rfl⟩ :=
      mem_joinRow_iff.mp hjoin
    have hsource := mem_zipIdx_fst.mp ⟨entry, hentry, rfl⟩
    rw [htracks] at htrackRow
    rw [hpaths] at hsource
    obtain ⟨k, push, hpush, htrack⟩ := mem_blocks_iff.mp htrackRow
    obtain ⟨m, other, hother, hpathRow⟩ := mem_blocks_iff.mp hsource
    have hk := push.listenerEventId_of_mem_trackRows (1 + k) trackRow htrack
    have hm := other.listenerEventId_of_mem_sourcePathRows (1 + m) _ hpathRow
    obtain rfl : k = m := by omega
    obtain rfl := Option.some.inj (hpush.symm.trans hother)
    obtain ⟨path, hpath, hsame⟩ := List.mem_map.mp hpathRow
    obtain ⟨fsEvent, rfl, hlisted, item, hitem, rfl⟩ :=
      filesystem_of_rows htrack hpath
    refine ⟨hkey, k, hk, fsEvent, hpush, ?_, item, hitem, ?_⟩
    · rw [← hsame]
      exact hlisted
    · rw [← ofRow_trackEventRow column (1 + k)]
      exact hcolumn
  · rintro ⟨hkey, k, rfl, fsEvent, hpush, hpath, item, hitem, hcolumn⟩
    have htrackRow : trackEventRow (1 + k) item ∈
        (ledgerOf pushes).trackEvents := by
      rw [htracks]
      exact mem_blocks_iff.mpr ⟨k, _, hpush, List.mem_map_of_mem hitem⟩
    have hsource : ImportSourcePath.mk (1 + k) path ∈
        (ledgerOf pushes).importSourcePaths := by
      rw [hpaths]
      exact mem_blocks_iff.mpr ⟨k, _, hpush, List.mem_map_of_mem hpath⟩
    obtain ⟨entry, hentry, hsame⟩ := mem_zipIdx_fst.mpr hsource
    refine ⟨_, List.mem_flatMap.mpr ⟨_, htrackRow, mem_joinRow_iff.mpr
      ⟨key, hkey, ?_, entry, hentry, ?_, rfl⟩⟩, rfl, ?_, rfl⟩
    · rw [ofRow_trackEventRow]
      exact hcolumn
    · rw [hsame]
      rfl
    · rw [hsame]

/-- The paths found for a key are those of its imports. -/
theorem mem_importSourcePathsByKey_iff {key : Int} {path : String} :
    path ∈ (ledgerOf pushes).importSourcePathsByKey column keys key ↔
      key ∈ keys ∧ ∃ k, ImportsFrom column key path pushes k := by
  rw [importSourcePathsByKey_apply, mem_distinct]
  constructor
  · rintro ⟨row, hrow, rfl⟩
    obtain ⟨hmem, hkey⟩ := List.mem_filter.mp hrow
    obtain ⟨hkeys, k, -, himports⟩ := mem_joinedRows_iff.mp
      ⟨row, (List.mem_insertionSort _).mp hmem, of_decide_eq_true hkey, rfl,
        rfl⟩
    exact ⟨hkeys, k, himports⟩
  · rintro ⟨hkeys, k, himports⟩
    obtain ⟨row, hrow, rfl, hpath, -⟩ :=
      mem_joinedRows_iff.mpr ⟨hkeys, k, rfl, himports⟩
    exact ⟨row, List.mem_filter.mpr ⟨(List.mem_insertionSort _).mpr hrow,
      decide_eq_true rfl⟩, hpath⟩

instance : IsTrans SourcePathRow SourcePathRow.Before where
  trans first second third hfirst hsecond := by
    unfold SourcePathRow.Before at *
    omega

instance : Std.Total SourcePathRow.Before where
  total row other := by
    unfold SourcePathRow.Before
    omega

/-- A path stands before another when some import from it came as late as
every import from the other. -/
theorem pairwise_importSourcePathsByKey (pushes : List EventPush)
    (column : KeyColumn) (keys : List Int) (key : Int) :
    ((ledgerOf pushes).importSourcePathsByKey column keys key).Pairwise
      fun path other => ∀ k, ImportsFrom column key other pushes k →
        ∃ later, k ≤ later ∧ ImportsFrom column key path pushes later := by
  by_cases hkeys : key ∈ keys
  · rw [importSourcePathsByKey_apply]
    have hsorted := List.pairwise_insertionSort SourcePathRow.Before
      ((ledgerOf pushes).joinedRows column keys)
    have hrows : (rowsOf SourcePathRow.key
        (((ledgerOf pushes).joinedRows column keys).insertionSort
          SourcePathRow.Before) key).Pairwise SourcePathRow.Before :=
      hsorted.sublist List.filter_sublist
    refine (pairwise_distinct hrows).imp ?_
    intro path other hpair k himports
    obtain ⟨later, hmem, hkey, hpath, hevent⟩ :=
      mem_joinedRows_iff.mpr ⟨hkeys, k, rfl, himports⟩
    obtain ⟨row, hrow, rfl, hbefore⟩ := hpair later
      (List.mem_filter.mpr ⟨(List.mem_insertionSort _).mpr hmem,
        decide_eq_true hkey⟩) hpath
    obtain ⟨hrowmem, hrowkey⟩ := List.mem_filter.mp hrow
    obtain ⟨-, m, hm, hfound⟩ := mem_joinedRows_iff.mp
      ⟨row, (List.mem_insertionSort _).mp hrowmem, of_decide_eq_true hrowkey,
        rfl, rfl⟩
    refine ⟨m, ?_, hfound⟩
    unfold SourcePathRow.Before at hbefore
    omega
  · have hnone : (ledgerOf pushes).importSourcePathsByKey column keys key =
        [] := by
      rw [List.eq_nil_iff_forall_not_mem]
      exact fun path hpath =>
        hkeys (mem_importSourcePathsByKey_iff.mp hpath).1
    rw [hnone]
    exact List.Pairwise.nil

end

/-- Every path found for a key was recorded since the key was last removed,
and the newest import comes first, without repetition. -/
structure OffersCurrent (column : KeyColumn) (keys : List Int)
    (pushes : List EventPush) : Prop where
  current : ∀ key, ∀ path ∈
    (ledgerOf pushes).importSourcePathsByKey column keys key,
    ImportedSinceRemoval column key path pushes
  newestFirst : ∀ key,
    ((ledgerOf pushes).importSourcePathsByKey column keys key).Pairwise
      fun path other => ∀ k, ImportsFrom column key other pushes k →
        ∃ later, k ≤ later ∧ ImportsFrom column key path pushes later
  distinct : ∀ key,
    ((ledgerOf pushes).importSourcePathsByKey column keys key).Nodup

/-- No path is out of date exactly if every import that a removal of its entry
follows was repeated, from each of its paths, after the last removal. -/
theorem offersCurrent_iff (column : KeyColumn) (keys : List Int)
    (pushes : List EventPush) :
    OffersCurrent column keys pushes ↔
      ∀ key ∈ keys, ∀ path k removal,
        ImportsFrom column key path pushes k →
        Removes column key pushes removal → k < removal →
        ImportedSinceRemoval column key path pushes := by
  constructor
  · intro hoffers key hkey path k removal himports _ _
    exact hoffers.current key path
      (mem_importSourcePathsByKey_iff.mpr ⟨hkey, k, himports⟩)
  · intro hrepeated
    refine ⟨?_, fun key =>
      pairwise_importSourcePathsByKey pushes column keys key, ?_⟩
    · intro key path hpath
      obtain ⟨hkey, k, himports⟩ := mem_importSourcePathsByKey_iff.mp hpath
      by_cases hremoved : ∃ removal, Removes column key pushes removal ∧
          k ≤ removal
      · obtain ⟨removal, hremoves, hle⟩ := hremoved
        refine hrepeated key hkey path k removal himports hremoves ?_
        refine Nat.lt_of_le_of_ne hle ?_
        rintro rfl
        obtain ⟨fsEvent, hpush, -⟩ := himports
        cases column with
        | beetsItemId =>
            obtain ⟨trackEvent, hother, -⟩ := hremoves
            rw [hpush] at hother
            cases hother
        | beetsAlbumId =>
            obtain ⟨albumEvent, hother, -⟩ := hremoves
            rw [hpush] at hother
            cases hother
      · refine ⟨k, himports, fun removal hremoves => ?_⟩
        by_contra hnot
        exact hremoved ⟨removal, hremoves, Nat.le_of_not_lt hnot⟩
    · intro key
      rw [importSourcePathsByKey_apply]
      exact nodup_distinct _ _

/-- The album that gets the id of a removed one is offered the folder of that
one. -/
theorem offersCurrent_counterexample :
    let pushes : List EventPush :=
      [.filesystem ⟨.importTaskFiles, ⟨0, 0⟩, some "APPLY", ["/in/first"],
        [⟨.importTaskFiles, ⟨0, 0⟩, ⟨1, "First", some 5, [], "Song"⟩⟩]⟩,
       .album ⟨.albumRemoved, ⟨1, 0⟩, ⟨5, "First"⟩⟩,
       .filesystem ⟨.importTaskFiles, ⟨2, 0⟩, some "APPLY", ["/in/second"],
        [⟨.importTaskFiles, ⟨2, 0⟩, ⟨2, "Second", some 5, [], "Tune"⟩⟩]⟩]
    (ledgerOf pushes).importSourcePathsByAlbumId [5] 5 =
        ["/in/second", "/in/first"] ∧
      ¬ OffersCurrent .beetsAlbumId [5] pushes := by
  refine ⟨by decide, fun hoffers => ?_⟩
  obtain ⟨k, ⟨fsEvent, hpush, hpath, -⟩, hafter⟩ :=
    hoffers.current 5 "/in/first" (by decide)
  have hlate : 1 < k := hafter 1 ⟨_, rfl, rfl, rfl⟩
  rcases k with _ | _ | _ | k
  · omega
  · omega
  · obtain rfl := EventPush.filesystem.inj (Option.some.inj hpush)
    exact absurd hpath (by decide)
  · cases hpush

end Beetkeeper
