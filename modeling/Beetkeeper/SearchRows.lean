/-
The source folders the search page shows beside its rows: those that pushes
recorded, else the one that was inferred for the entry, else the one that was
inferred for the album a track belongs to.
-/
import Beetkeeper.SourcePathLookup
import Beetkeeper.InferredPaths

namespace Beetkeeper

/-- What a row of the results holds of its entry; `albumId` is read of tracks
only. -/
structure SearchRow where
  id : Nat
  albumId : Option Nat
deriving Repr, DecidableEq

/-- The album of a track that is in one; zero is as good as none. -/
def SearchRow.album? (row : SearchRow) : Option Nat :=
  row.albumId.filter fun albumId => decide (albumId ≠ 0)

/-- `inferred_source_paths`. -/
def inferredSourcePaths (table : InferenceTable) (subject : CleanSlateSubject)
    (beetsIds : List Nat) (id : Nat) : Option String :=
  if id ∈ beetsIds then table.paths (subject, id) else none

/-- A track without an inference of its own takes over its album's. -/
def fallBack (byAlbum : Nat → Option String) (byTrack : Nat → Option String)
    (row : SearchRow) : Nat → Option String :=
  match byTrack row.id, row.albumId.bind byAlbum with
  | none, some path => Function.update byTrack row.id (some path)
  | _, _ => byTrack

/-- `_inferred_source_paths_for_rows`. -/
def inferredSourcePathsForRows (table : InferenceTable)
    (rows : List SearchRow) (albums : Bool) : Nat → Option String :=
  let ids := rows.map SearchRow.id
  if albums then inferredSourcePaths table .album ids
  else
    let byTrack := inferredSourcePaths table .track ids
    let albumIds := rows.filterMap fun row =>
      if byTrack row.id = none then row.album? else none
    rows.foldl (fallBack (inferredSourcePaths table .album albumIds)) byTrack

/-- The lookup of the recorded paths: by the album or by the track. -/
def sourcePathsLookup (db : EventsDb) (rows : List SearchRow)
    (albums : Bool) (row : SearchRow) : List String :=
  let ids := rows.map fun row => (row.id : Int)
  if albums then db.importSourcePathsByAlbumId ids row.id
  else db.importSourcePathsByTrackId ids row.id

/-- The source path cell of a row. -/
inductive SourceCell where
  | recorded (paths : List String)
  | inferred (path : String)
  | notRecorded
deriving Repr, DecidableEq

/-- `source_path_cell`. -/
def sourcePathCell (paths : List String) (inferred? : Option String) :
    SourceCell :=
  match paths, inferred? with
  | _ :: _, _ => .recorded paths
  | [], some path => .inferred path
  | [], none => .notRecorded

/-- The paths a cell links to. -/
def SourceCell.paths : SourceCell → List String
  | recorded paths => paths
  | inferred path => [path]
  | notRecorded => []

/-- The cell `search_results_fragment` shows in a row. -/
def searchCell (db : EventsDb) (table : InferenceTable)
    (rows : List SearchRow) (albums : Bool) (row : SearchRow) : SourceCell :=
  sourcePathCell (sourcePathsLookup db rows albums row)
    (inferredSourcePathsForRows table rows albums row.id)

/-- The number in the notice above the table. -/
def missingSourceCount (db : EventsDb) (table : InferenceTable)
    (rows : List SearchRow) (albums : Bool) : Nat :=
  rows.countP fun row =>
    (sourcePathsLookup db rows albums row).isEmpty &&
      (inferredSourcePathsForRows table rows albums row.id).isNone

/-- What the rows are: their subject and the column their pushes carry. -/
def rowSubject (albums : Bool) : CleanSlateSubject :=
  if albums then .album else .track

def rowColumn (albums : Bool) : KeyColumn :=
  if albums then .beetsAlbumId else .beetsItemId

/-- The entry's own inference, or for a track the one of its album. -/
def inferenceFor (table : InferenceTable) (albums : Bool) (row : SearchRow) :
    Option String :=
  (table.paths (rowSubject albums, row.id)).or
    (if albums then none
      else row.album?.bind fun albumId => table.paths (.album, albumId))

section FallBack

variable {byAlbum byTrack : Nat → Option String}

theorem fallBack_eq (row : SearchRow) :
    fallBack byAlbum byTrack row =
      Function.update byTrack row.id
        ((byTrack row.id).or (row.albumId.bind byAlbum)) := by
  have hsame := Function.update_eq_self row.id byTrack
  unfold fallBack
  cases htrack : byTrack row.id with
  | some path =>
      rw [htrack] at hsame
      exact hsame.symm
  | none =>
      rw [htrack] at hsame
      cases row.albumId.bind byAlbum with
      | some path => rfl
      | none => exact hsame.symm

theorem foldl_fallBack_of_not_mem {rows : List SearchRow} {id : Nat}
    (hid : id ∉ rows.map SearchRow.id) :
    rows.foldl (fallBack byAlbum) byTrack id = byTrack id := by
  induction rows generalizing byTrack with
  | nil => rfl
  | cons row rest ih =>
      rw [List.map_cons, List.mem_cons, not_or] at hid
      rw [List.foldl_cons, ih hid.2, fallBack_eq, Function.update_of_ne hid.1]

/-- The induction is on the rows: each row only writes under its own id. -/
theorem foldl_fallBack {rows : List SearchRow}
    (hids : (rows.map SearchRow.id).Nodup) {row : SearchRow}
    (hrow : row ∈ rows) :
    rows.foldl (fallBack byAlbum) byTrack row.id =
      (byTrack row.id).or (row.albumId.bind byAlbum) := by
  induction rows generalizing byTrack with
  | nil => cases hrow
  | cons first rest ih =>
      rw [List.map_cons, List.nodup_cons] at hids
      obtain ⟨hfirst, hrest⟩ := hids
      rcases List.mem_cons.mp hrow with rfl | hlater
      · rw [List.foldl_cons, foldl_fallBack_of_not_mem hfirst, fallBack_eq,
          Function.update_self]
      · have hne : row.id ≠ first.id := by
          intro hsame
          exact hfirst (hsame ▸ List.mem_map_of_mem hlater)
        rw [List.foldl_cons, ih hrest hlater, fallBack_eq,
          Function.update_of_ne hne]

end FallBack

section Cells

variable {pushes : List EventPush} {table : InferenceTable}
  {rows : List SearchRow} {albums : Bool} {row : SearchRow}

/-- The albums that are asked for are those of the tracks without an
inference. -/
theorem inferredSourcePaths_album (table : InferenceTable)
    (missing : SearchRow → Prop) [DecidablePred missing] (hrow : row ∈ rows)
    (hmissing : missing row) :
    row.albumId.bind (inferredSourcePaths table .album
        (rows.filterMap fun row => if missing row then row.album? else none)) =
      row.album?.bind fun albumId => table.paths (.album, albumId) := by
  cases halbum : row.albumId with
  | none => simp [SearchRow.album?, halbum]
  | some albumId =>
      by_cases hzero : albumId = 0
      · have hnot : albumId ∉ rows.filterMap fun row =>
            if missing row then row.album? else none := by
          rw [List.mem_filterMap]
          rintro ⟨other, _, hother⟩
          split at hother
          · simp [SearchRow.album?, Option.filter_eq_some_iff, hzero] at hother
          · cases hother
        rw [Option.bind_some, inferredSourcePaths, if_neg hnot,
          SearchRow.album?, halbum, hzero]
        rfl
      · have hgiven : row.album? = some albumId := by
          simp [SearchRow.album?, halbum, hzero]
        have hthere : albumId ∈ rows.filterMap fun row =>
            if missing row then row.album? else none :=
          List.mem_filterMap.mpr ⟨row, hrow, by rw [if_pos hmissing, hgiven]⟩
        rw [Option.bind_some, inferredSourcePaths, if_pos hthere, hgiven,
          Option.bind_some]

theorem inferredSourcePathsForRows_eq (table : InferenceTable)
    (albums : Bool)
    (hids : (rows.map SearchRow.id).Nodup) (hrow : row ∈ rows) :
    inferredSourcePathsForRows table rows albums row.id =
      inferenceFor table albums row := by
  have hid : row.id ∈ rows.map SearchRow.id := List.mem_map_of_mem hrow
  cases albums with
  | true =>
      simp [inferredSourcePathsForRows, inferredSourcePaths, hid,
        inferenceFor, rowSubject]
  | false =>
      have hown : inferredSourcePaths table .track (rows.map SearchRow.id)
          row.id = table.paths (.track, row.id) := if_pos hid
      rw [inferredSourcePathsForRows, if_neg Bool.false_ne_true,
        foldl_fallBack hids hrow, hown, inferenceFor, rowSubject,
        if_neg Bool.false_ne_true, if_neg Bool.false_ne_true]
      cases htrack : table.paths (.track, row.id) with
      | some path => rfl
      | none =>
          have hmissing : inferredSourcePaths table .track
              (rows.map SearchRow.id) row.id = none := hown.trans htrack
          rw [Option.none_or, Option.none_or]
          exact inferredSourcePaths_album table
            (fun row => inferredSourcePaths table .track
              (rows.map SearchRow.id) row.id = none) hrow hmissing

theorem mem_sourcePathsLookup_iff (hrow : row ∈ rows) {path : String} :
    path ∈ sourcePathsLookup (ledgerOf pushes) rows albums row ↔
      ∃ k, ImportsFrom (rowColumn albums) row.id path pushes k := by
  have hid : (row.id : Int) ∈ rows.map fun row => (row.id : Int) :=
    List.mem_map_of_mem hrow
  cases albums with
  | true => exact mem_importSourcePathsByKey_iff.trans (and_iff_right hid)
  | false => exact mem_importSourcePathsByKey_iff.trans (and_iff_right hid)

/-- A cell shows what is known about the entry: the folders its pushes were
imported from, the newest import first, and only if there are none the
inference. -/
structure ShowsSources (pushes : List EventPush) (table : InferenceTable)
    (albums : Bool) (row : SearchRow) (cell : SourceCell) : Prop where
  recorded : ∀ path k, ImportsFrom (rowColumn albums) row.id path pushes k →
    ∃ paths, cell = .recorded paths ∧ path ∈ paths
  imported : ∀ paths, cell = .recorded paths →
    paths ≠ [] ∧
      (∀ path ∈ paths,
        ∃ k, ImportsFrom (rowColumn albums) row.id path pushes k) ∧
      paths.Pairwise fun path other =>
        ∀ k, ImportsFrom (rowColumn albums) row.id other pushes k →
          ∃ later, k ≤ later ∧
            ImportsFrom (rowColumn albums) row.id path pushes later
  inferred : (∀ path k,
      ¬ ImportsFrom (rowColumn albums) row.id path pushes k) →
    cell = (inferenceFor table albums row).elim .notRecorded .inferred

theorem sourcePathCell_eq_recorded_iff {paths shown : List String}
    {inferred? : Option String} :
    sourcePathCell paths inferred? = .recorded shown ↔
      shown = paths ∧ paths ≠ [] := by
  cases paths with
  | nil => cases inferred? <;> simp [sourcePathCell]
  | cons path rest => simp [sourcePathCell, eq_comm]

theorem sourcePathCell_eq_notRecorded_iff {paths : List String}
    {inferred? : Option String} :
    sourcePathCell paths inferred? = .notRecorded ↔
      paths = [] ∧ inferred? = none := by
  cases paths with
  | nil => cases inferred? <;> simp [sourcePathCell]
  | cons path rest => simp [sourcePathCell]

/-- Whatever was pushed and inferred, every row of a page shows its sources,
and the notice counts the rows that show none. -/
theorem cells_show_sources (pushes : List EventPush) (table : InferenceTable)
    (rows : List SearchRow) (albums : Bool)
    (hids : (rows.map SearchRow.id).Nodup) :
    (∀ row ∈ rows, ShowsSources pushes table albums row
      (searchCell (ledgerOf pushes) table rows albums row)) ∧
    missingSourceCount (ledgerOf pushes) table rows albums =
      rows.countP fun row => decide (searchCell (ledgerOf pushes) table rows
        albums row = .notRecorded) := by
  constructor
  · intro row hrow
    have hmem : ∀ path, path ∈ sourcePathsLookup (ledgerOf pushes) rows
        albums row ↔ ∃ k, ImportsFrom (rowColumn albums) row.id path pushes k :=
      fun path => mem_sourcePathsLookup_iff hrow
    have hinferred := inferredSourcePathsForRows_eq table albums hids hrow
    refine ⟨?_, ?_, ?_⟩
    · intro path k himports
      have hthere := (hmem path).mpr ⟨k, himports⟩
      exact ⟨_, sourcePathCell_eq_recorded_iff.mpr
        ⟨rfl, List.ne_nil_of_mem hthere⟩, hthere⟩
    · intro paths hcell
      obtain ⟨rfl, hsome⟩ := sourcePathCell_eq_recorded_iff.mp hcell
      refine ⟨hsome, fun path hpath => (hmem path).mp hpath, ?_⟩
      cases albums with
      | true => exact pairwise_importSourcePathsByKey pushes _ _ _
      | false => exact pairwise_importSourcePathsByKey pushes _ _ _
    · intro hnever
      have hnone : sourcePathsLookup (ledgerOf pushes) rows albums row =
          [] := by
        rw [List.eq_nil_iff_forall_not_mem]
        intro path hpath
        obtain ⟨k, himports⟩ := (hmem path).mp hpath
        exact hnever path k himports
      rw [searchCell, hnone, hinferred]
      cases inferenceFor table albums row with
      | none => rfl
      | some path => rfl
  · rw [missingSourceCount]
    apply List.countP_congr
    intro row _
    simp [searchCell, sourcePathCell_eq_notRecorded_iff]

/-- Two tracks of an album whose folder was inferred; the first track's import
was pushed. -/
def pushedTrack : List EventPush :=
  [.filesystem ⟨.importTaskFiles, ⟨0, 0⟩, some "APPLY", ["/in/first"],
    [⟨.importTaskFiles, ⟨0, 0⟩, ⟨1, "First", some 5, [], "Song"⟩⟩]⟩]

def inferredAlbum : InferenceTable :=
  ⟨[⟨.album, 5, "/in/album", "downloader_hook", none, 0⟩], by simp⟩

theorem cells_show_sources_two_tracks :
    (∀ row ∈ [SearchRow.mk 1 (some 5), ⟨2, some 5⟩],
      ShowsSources pushedTrack inferredAlbum false row
        (searchCell (ledgerOf pushedTrack) inferredAlbum
          [⟨1, some 5⟩, ⟨2, some 5⟩] false row)) ∧
    missingSourceCount (ledgerOf pushedTrack) inferredAlbum
        [⟨1, some 5⟩, ⟨2, some 5⟩] false =
      [SearchRow.mk 1 (some 5), ⟨2, some 5⟩].countP fun row => decide
        (searchCell (ledgerOf pushedTrack) inferredAlbum
          [⟨1, some 5⟩, ⟨2, some 5⟩] false row = .notRecorded) :=
  cells_show_sources pushedTrack inferredAlbum [⟨1, some 5⟩, ⟨2, some 5⟩]
    false (by decide)

end Cells

end Beetkeeper
