/-
The Files column of the search page.  One query fetches the items of all
albums of a page, another the tracks of a page; what a row shows is what the
dry run of a clean slate of its entry reports.
-/
import Beetkeeper.SearchRows
import Beetkeeper.TrackTotals

namespace Beetkeeper

open GroupedRows LexicalPath

/-- `lib.items(query)`: the rows that match, in the order `album.items()` uses
too. -/
def Library.itemsMatching (library : Library) (beets : Beets)
    (cond : Item → Bool) : List Item :=
  beets.sortItems (library.items.rows.filter cond)

/-- The order of two rows does not depend on the other rows of a query. -/
def Beets.SortsRowByRow (beets : Beets) : Prop :=
  ∀ items cond, (beets.sortItems items).filter cond =
    beets.sortItems (items.filter cond)

/-- `album_file_health`: an album without items is left out. -/
def albumFileHealth (beets : Beets) (world : BeetsWorld)
    (beetsAlbumIds : List Nat) : Nat → Option AlbumFileHealth :=
  if beetsAlbumIds.isEmpty then fun _ => none
  else
    let items := world.library.itemsMatching beets fun item =>
      item.albumId.any (· ∈ beetsAlbumIds)
    let itemsByAlbum := items.foldl (fun groups item =>
      if item.albumId.isSome then
        set groups item.albumId (groups item.albumId ++ [item])
      else groups) fun _ => []
    fun albumId =>
      if (itemsByAlbum (some albumId)).isEmpty then none
      else some (fileHealth beets world.tree (itemsByAlbum (some albumId)))

/-- `missing_item_files`. -/
def missingItemFiles (beets : Beets) (world : BeetsWorld)
    (beetsItemIds : List Nat) : List Nat :=
  if beetsItemIds.isEmpty then []
  else
    let items := world.library.itemsMatching beets (·.id ∈ beetsItemIds)
    (items.filter fun item => !fileExists world.tree item).map Item.id

/-- The cell of the Files column. -/
inductive FilesCell where
  | unknown
  | ok
  /-- the file of a track -/
  | fileMissing
  /-- files missing of how many, rows of how many the release lists -/
  | incomplete (missing short : Option (Nat × Nat))
deriving Repr, DecidableEq

/-- `album_health_cell`. -/
def albumHealthCell : Option AlbumFileHealth → FilesCell
  | none => .unknown
  | some health =>
      if health.incomplete then
        .incomplete
          (if 0 < health.filesMissing then
            some (health.filesMissing, health.itemCount) else none)
          (if 0 < health.shortOfRelease then
            some (health.itemCount, health.expectedTracks.getD 0) else none)
      else .ok

/-- The cell `search_results_fragment` shows in a row. -/
def filesCell (beets : Beets) (world : BeetsWorld) (rows : List SearchRow)
    (albums : Bool) (row : SearchRow) : FilesCell :=
  let rowIds := rows.map SearchRow.id
  if albums then albumHealthCell (albumFileHealth beets world rowIds row.id)
  else if row.id ∈ missingItemFiles beets world rowIds then .fileMissing
  else .ok

/-- What a dry run reports of the files of an entry. -/
def CleanSlatePreview.filesCell (plan : CleanSlatePreview) : FilesCell :=
  let missing := plan.missingPaths.length
  match plan.subject with
  | .track => if missing = 0 then .ok else .fileMissing
  | .album =>
      let short := plan.expectedTracks.filter fun tracks =>
        decide (plan.itemCount < tracks)
      if plan.itemCount = 0 then .unknown
      else if missing = 0 ∧ short = none then .ok
      else .incomplete
        (if missing = 0 then none else some (missing, plan.itemCount))
        (short.map fun tracks => (plan.itemCount, tracks))

section

variable {beets : Beets} {world : BeetsWorld}

/-- The items of one album among those of a page. -/
theorem albumFileHealth_eq (hsort : beets.SortsRowByRow) {ids : List Nat}
    {albumId : Nat} (hid : albumId ∈ ids) :
    albumFileHealth beets world ids albumId =
      (let items := world.library.itemsMatching beets fun item =>
        item.albumId == some albumId
      if items.isEmpty then none
      else some (fileHealth beets world.tree items)) := by
  have hsome : ids.isEmpty = false := by
    cases ids with
    | nil => cases hid
    | cons => rfl
  have hgroup : (world.library.itemsMatching beets fun item =>
        item.albumId.any (· ∈ ids)).foldl (fun groups item =>
          if item.albumId.isSome then
            set groups item.albumId (groups item.albumId ++ [item])
          else groups) (fun _ => []) (some albumId) =
      world.library.itemsMatching beets fun item =>
        item.albumId == some albumId := by
    rw [foldl_set_apply Item.albumId (fun item => item.albumId.isSome)
      (fun items item => items ++ [item])]
    refine (foldl_append_singleton id _ []).trans ?_
    rw [List.nil_append, List.map_id, Library.itemsMatching, hsort,
      List.filter_filter, Library.itemsMatching]
    congr 1
    apply List.filter_congr
    intro item _
    cases item.albumId with
    | none => rfl
    | some other =>
        by_cases hsame : other = albumId
        · simp [hsame, hid]
        · simp [hsame]
  simp only [albumFileHealth, hsome, Bool.false_eq_true, if_false, hgroup]

theorem length_missing (tree : FileTree String) (items : List Item) :
    (items.filter fun item => !fileExists tree item).length =
      items.length - (items.filter (fileExists tree)).length := by
  have hboth := List.length_eq_length_filter_add (l := items)
    (fileExists tree)
  omega

/-- The tracks a release lists beyond the rows. -/
theorem shortOfRelease_pos_iff {health : AlbumFileHealth} :
    0 < health.shortOfRelease ↔
      ∃ tracks, health.expectedTracks = some tracks ∧
        health.itemCount < tracks := by
  unfold AlbumFileHealth.shortOfRelease
  cases health.expectedTracks with
  | none => simp
  | some tracks =>
      simp only [Option.some.injEq, exists_eq_left', Nat.sub_pos_iff_lt]

/-- The marker is made of the numbers a dry run reports. -/
theorem albumHealthCell_some {health : AlbumFileHealth}
    {plan : CleanSlatePreview} (hsubject : plan.subject = .album)
    (hrows : plan.itemCount ≠ 0) (hcount : health.itemCount = plan.itemCount)
    (hmissing : health.filesMissing = plan.missingPaths.length)
    (htracks : health.expectedTracks = plan.expectedTracks) :
    albumHealthCell (some health) = plan.filesCell := by
  have hshort := @shortOfRelease_pos_iff health
  rw [hcount, htracks] at hshort
  simp only [albumHealthCell, AlbumFileHealth.incomplete, hshort, hmissing,
    htracks, hcount, CleanSlatePreview.filesCell, hsubject, if_neg hrows,
    Nat.pos_iff_ne_zero]
  cases plan.expectedTracks with
  | none =>
      by_cases hnone : plan.missingPaths.length = 0 <;> simp [hnone]
  | some tracks =>
      by_cases hlisted : plan.itemCount < tracks <;>
        by_cases hnone : plan.missingPaths.length = 0 <;>
        simp [hlisted, hnone, Option.filter]

theorem mem_missingItemFiles {ids : List Nat} {id : Nat} :
    id ∈ missingItemFiles beets world ids ↔
      id ∈ ids ∧ ∃ item, world.library.getItem id = some item ∧
        fileExists world.tree item = false := by
  have hsome : id ∈ ids → ids.isEmpty = false := by
    rintro hid
    cases ids with
    | nil => cases hid
    | cons => rfl
  constructor
  · intro hmissing
    unfold missingItemFiles at hmissing
    split at hmissing
    · cases hmissing
    · obtain ⟨item, hitem, rfl⟩ := List.mem_map.mp hmissing
      obtain ⟨hmatch, hgone⟩ := List.mem_filter.mp hitem
      obtain ⟨hstored, hid⟩ := List.mem_filter.mp
        ((beets.sortItems_perm _).mem_iff.mp hmatch)
      exact ⟨of_decide_eq_true hid, item,
        KeyedTable.get?_eq_some_iff.mpr ⟨hstored, rfl⟩,
        by simpa using hgone⟩
  · rintro ⟨hid, item, hitem, hgone⟩
    obtain ⟨hstored, rfl⟩ := KeyedTable.get?_eq_some_iff.mp hitem
    rw [missingItemFiles, hsome hid, if_neg Bool.false_ne_true]
    refine List.mem_map.mpr ⟨item, List.mem_filter.mpr
      ⟨(beets.sortItems_perm _).mem_iff.mpr ?_, by rw [hgone]; rfl⟩, rfl⟩
    exact List.mem_filter.mpr ⟨hstored, decide_eq_true hid⟩

/-- What a row shows of the files of its entry is what the dry run of a clean
slate of the entry reports, whatever else is on the page. -/
theorem files_cells_agree_with_previews (beets : Beets)
    (hsort : beets.SortsRowByRow) (world : BeetsWorld)
    (rows : List SearchRow) (albums : Bool) (row : SearchRow)
    (hrow : row ∈ rows) (sourcePath downloadsPath : OsPath)
    (allowFewerFiles : Bool) (preserveFields : List String)
    (plan : CleanSlatePreview)
    (hpreview : preview beets world ⟨rowSubject albums, row.id⟩ sourcePath
      downloadsPath allowFewerFiles preserveFields = .ok plan) :
    filesCell beets world rows albums row = plan.filesCell ∧
      plan.missingPaths.length = plan.itemCount - plan.filesPresent := by
  obtain ⟨entry, hentry, rfl⟩ := preview_eq_ok_iff.mp hpreview
  have hid : row.id ∈ rows.map SearchRow.id := List.mem_map_of_mem hrow
  refine ⟨?_, ?_⟩
  · cases albums with
    | true =>
        obtain ⟨album, halbum, rfl⟩ := Option.map_eq_some_iff.mp hentry
        obtain ⟨_, hsame⟩ := KeyedTable.get?_eq_some_iff.mp halbum
        have hitems : (world.library.itemsMatching beets fun item =>
            item.albumId == some row.id) =
            world.library.itemsOf beets album := by
          rw [Library.itemsOf, hsame, Library.itemsMatching]
        change albumHealthCell (albumFileHealth beets world _ row.id) = _
        rw [albumFileHealth_eq hsort hid, hitems]
        by_cases hnone : world.library.itemsOf beets album = []
        · simp [hnone, albumHealthCell, CleanSlatePreview.filesCell,
            previewEntry, rowSubject]
        · have hrows : (world.library.itemsOf beets album).isEmpty =
              false := by simpa using hnone
          simp only [hrows, Bool.false_eq_true, if_false]
          refine albumHealthCell_some rfl
            (mt List.length_eq_zero_iff.mp hnone) rfl ?_ rfl
          simp only [previewEntry, List.length_map]
          exact (length_missing world.tree _).symm
    | false =>
        obtain ⟨item, hitem, rfl⟩ := Option.map_eq_some_iff.mp hentry
        change (if row.id ∈ missingItemFiles beets world _ then _ else _) = _
        cases hexists : fileExists world.tree item with
        | true =>
            rw [if_neg]
            · simp [CleanSlatePreview.filesCell, previewEntry, rowSubject,
                hexists]
            · rintro hmissing
              obtain ⟨_, other, hother, hgone⟩ :=
                mem_missingItemFiles.mp hmissing
              obtain rfl := Option.some.inj (hother.symm.trans hitem)
              exact Bool.false_ne_true (hgone.symm.trans hexists)
        | false =>
            rw [if_pos (mem_missingItemFiles.mpr ⟨hid, item, hitem, hexists⟩)]
            simp [CleanSlatePreview.filesCell, previewEntry, rowSubject,
              hexists]
  · simp only [previewEntry, List.length_map]
    exact length_missing world.tree entry.items

end

/-- An album whose file is there and one whose file is gone, on one page. -/
def twoAlbums : BeetsWorld :=
  { albumWorld with
    library := { albumWorld.library with
      albums := ⟨[albumRow, { albumRow with id := 2 }], by decide⟩
      items := ⟨[trackRow (spell ["music", "Album", "01.mp3"]),
        { trackRow (spell ["music", "Gone", "01.mp3"]) with
          id := 2, albumId := some 2, tracktotal := 2 }], by decide⟩ } }

theorem files_cells_agree_with_previews_gone :
    filesCell plainBeets twoAlbums [⟨1, none⟩, ⟨2, none⟩] true ⟨2, none⟩ =
        .incomplete (some (1, 1)) (some (1, 2)) ∧
      ∃ plan, preview plainBeets twoAlbums ⟨.album, 2⟩
        (spell ["downloads", "Album"]) (spell ["downloads"]) false [] =
          .ok plan ∧
        filesCell plainBeets twoAlbums [⟨1, none⟩, ⟨2, none⟩] true
          ⟨2, none⟩ = plan.filesCell ∧
        plan.missingPaths.length = plan.itemCount - plan.filesPresent :=
  ⟨by decide, _, rfl, files_cells_agree_with_previews plainBeets
    (fun _ _ => rfl) twoAlbums [⟨1, none⟩, ⟨2, none⟩] true ⟨2, none⟩
    (by decide) (spell ["downloads", "Album"]) (spell ["downloads"]) false []
    _ rfl⟩

end Beetkeeper
