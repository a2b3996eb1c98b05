/-
The dry run of a clean slate: the entry it would remove, the files that would
be deleted with it, what the source folder holds, and what stands in the way.
-/
import Mathlib.Data.List.MinMax
import Mathlib.Data.List.Sort
import Beetkeeper.PyText
import Beetkeeper.ImportConfig
import Beetkeeper.BeetsLibrary

namespace Beetkeeper

open LexicalPath PyText

inductive CleanSlateErrorKind where
  | notFound
  | invalid
  | needsConfirmation
deriving Repr, DecidableEq

/-- How a clean slate fails: by `CleanSlateError`, by the `ValueError` of a
target with no or two ids, or by a file that cannot be deleted. -/
inductive CleanSlateFailure where
  | refused (kind : CleanSlateErrorKind) (message : String)
      (preview : Option CleanSlatePreview)
  | badTarget (message : String)
  | filesystem (failure : FilesystemError)
deriving Repr, DecidableEq

def CleanSlateFailure.message : CleanSlateFailure → String
  | .refused _ message _ => message
  | .badTarget message => message
  | .filesystem failure => failure.reason

/-- `_Entry`. -/
structure Entry where
  label : String
  album : Option Album
  items : List Item
deriving Repr, DecidableEq

/-- `_DeletionPlan`. -/
structure DeletionPlan where
  toDelete : List OsPath
  kept : List OsPath
  art : Option OsPath
deriving Repr, DecidableEq

/-- `_SourceScan`. -/
structure SourceScan where
  errors : List String
  audioFiles : Nat
  albumGroups : Nat
  commonTags : Option (String × String)
deriving Repr, DecidableEq

def CleanSlateSubject.word : CleanSlateSubject → String
  | .album => "album"
  | .track => "track"

/-- `text or default`. -/
def orText (text default : String) : String :=
  if text.isEmpty then default else text

/-- `first or '?' - second or '?'`. -/
def entryLabel (first second : String) : String :=
  orText first "?" ++ " - " ++ orText second "?"

def fileExists (tree : FileTree String) (item : Item) : Bool :=
  tree.pathExists item.path

/-- `n or None`. -/
def orNone (n : Nat) : Option Nat := if n = 0 then none else some n

/-- The loop of `expected_tracks` over the discs: one total for each disc,
up to the number of discs. -/
def discTotals (disctotal : Nat) : List Nat → Nat → List Item → Nat
  | _, total, [] => total
  | seen, total, item :: rest =>
      if item.disc ∈ seen then discTotals disctotal seen total rest
      else if seen.length + 1 = disctotal then total + item.tracktotal
      else discTotals disctotal (item.disc :: seen) (total + item.tracktotal)
        rest

/-- `expected_tracks`. -/
def expectedTracks (beets : Beets) : List Item → Option Nat
  | [] => none
  | first :: rest =>
      if first.disctotal ≤ 1 || !beets.perDiscNumbering then
        orNone first.tracktotal
      else orNone (discTotals first.disctotal [] 0 (first :: rest))

/-- `_load_entry`. -/
def loadEntry (beets : Beets) (library : Library)
    (target : CleanSlateTarget) : Option Entry :=
  match target.subject with
  | .album => (library.getAlbum target.beetsId).map fun album =>
      ⟨entryLabel album.albumartist album.album, some album,
        library.itemsOf beets album⟩
  | .track => (library.getItem target.beetsId).map fun item =>
      ⟨entryLabel item.artist item.title, none, [item]⟩

/-- The flexible attributes of `_models`, the album's before the items'. -/
def Entry.models (entry : Entry) : List FlexAttributes :=
  entry.album.toList.map Album.flex ++ entry.items.map Item.flex

/-- `_flexible_attributes`. -/
def flexibleAttributes (entry : Entry) (excluding : List String) :
    List String :=
  ((entry.models.flatten.map Prod.fst).dedup.filter
    fun name => decide (name ∉ excluding)).insertionSort (· ≤ ·)

/-- The value a row holds for a field, unless it is None or blank. -/
def heldValue (name : String) (flex : FlexAttributes) : Option String :=
  (flex.lookup name).join.filter fun value => !(strip value.toList).isEmpty

/-- `_preserved_fields`. -/
def preservedFields (entry : Entry) (names : List String) : StrDict :=
  names.foldl (fun preserved name =>
    match entry.models.findSome? (heldValue name) with
    | some value => StrDict.set preserved name value
    | none => preserved) []

/-- `_normalized_source`. -/
def normalizedSource (tree : FileTree String) (sourcePath : OsPath) :
    Location String := tree.realpath sourcePath

/-- The rule of `_deletion_plan` for a file and for the art: inside the beets
directory and not under the source.  Both are compared as written. -/
def deletable (library : Library) (source : Location String)
    (path : OsPath) : Bool :=
  inside (normpath path) library.directory && !inside (normpath path) source

/-- `_deletion_plan`. -/
def deletionPlan (library : Library) (tree : FileTree String) (entry : Entry)
    (source : Location String) : DeletionPlan :=
  let present := (entry.items.filter (fileExists tree)).map Item.path
  { toDelete := present.filter (deletable library source)
    kept := present.filter fun path => !deletable library source path
    art := (entry.album.bind Album.artpath).filter fun path =>
      tree.pathExists path && deletable library source path }

/-- `_readable_items`, as the tags of the files that can be read. -/
def readableItems (world : BeetsWorld) (paths : List (Location String)) :
    List MediaTags :=
  paths.filterMap world.fromPath

/-- `Counter(values).most_common(1)`: of equally frequent values the one seen
first. -/
def mostCommon (values : List (String × String)) : Option (String × String) :=
  values.argmax fun value => values.count value

/-- The tags of a file the scan counts. -/
def sourceTags (tags : MediaTags) : String × String :=
  (orText tags.albumartist tags.artist, tags.album)

/-- What `_scan_source` objects to in the place of the source. -/
def sourcePlaceErrors (world : BeetsWorld) (target : CleanSlateTarget)
    (source : Location String) (downloadsRoot : Location String) :
    List String :=
  let shownRoot := displayLocation downloadsRoot
  (if source = downloadsRoot ∨ inside source downloadsRoot = false then
    [s!"Source path must be a folder inside '{shownRoot}'."] else []) ++
  (if inside source world.library.directory then
    ["Source path lies inside the beets library directory; a clean slate " ++
      "imports from outside it."] else []) ++
  (if target.subject = .album ∧
      world.tree.pathIsDir (spell source) = false then
    ["Source path must be a folder for an album."] else [])

/-- What `_scan_source` objects to in what the source holds. -/
def sourceContentErrors (target : CleanSlateTarget)
    (source : Location String) (audioFiles albumGroups : Nat) :
    List String :=
  let shown := displayLocation source
  if audioFiles = 0 then
    [s!"No readable audio files found under '{shown}'."]
  else if target.subject = .album ∧ albumGroups ≠ 1 then
    [s!"'{shown}' holds {albumGroups} album folders; point at the album's " ++
      "own folder."]
  else if target.subject = .track ∧ audioFiles ≠ 1 then
    [s!"'{shown}' holds {audioFiles} audio files; a standalone track needs " ++
      "exactly one."]
  else []

/-- `_scan_source`. -/
def scanSource (beets : Beets) (world : BeetsWorld)
    (target : CleanSlateTarget) (source : Location String)
    (downloadsPath : OsPath) : SourceScan :=
  let shown := displayLocation source
  if world.tree.pathExists (spell source) then
    let errors := sourcePlaceErrors world target source
      (world.tree.realpath downloadsPath)
    if errors.isEmpty then
      let groups := if world.tree.pathIsDir (spell source) then
        beets.albumsInDir world.tree source else [[source]]
      let readable := readableItems world groups.flatten
      { errors := sourceContentErrors target source readable.length
          groups.length
        audioFiles := readable.length
        albumGroups := groups.length
        commonTags := mostCommon (readable.map sourceTags) }
    else ⟨errors, 0, 0, none⟩
  else ⟨[s!"Source path '{shown}' does not exist."], 0, 0, none⟩

/-- The error of a track that is part of an album. -/
def trackErrors (target : CleanSlateTarget) (entry : Entry) : List String :=
  match target.subject, entry.items.head?.bind Item.albumId with
  | .track, some albumId =>
      if albumId = 0 then []
      else [s!"This track belongs to album #{albumId}; run the clean slate " ++
        "on that album instead."]
  | _, _ => []

/-- The warnings of the preview, in order. -/
def previewWarnings (target : CleanSlateTarget) (entry : Entry)
    (scan : SourceScan) (present missing : Nat)
    (tracksExpected : Option Nat) : List String :=
  let audioFiles := scan.audioFiles
  (if scan.errors.isEmpty && decide (audioFiles < present) then
    [s!"The source has {audioFiles} audio file(s) but the library currently " ++
      s!"has {present} on disk: the clean slate would delete files the source " ++
      "cannot replace."] else []) ++
  (if decide (missing = 0) && scan.errors.isEmpty then
    ["Every file of this entry is still on disk; the clean slate replaces " ++
      "them all anyway."] else []) ++
  (match tracksExpected with
    | some expected =>
        if audioFiles ≠ 0 ∧ audioFiles < expected then
          [s!"The source has {audioFiles} audio file(s) but the album's tags " ++
            s!"list {expected} tracks."]
        else []
    | none => []) ++
  (match scan.commonTags, target.subject with
    | some (artist, album), .album =>
        let sourceLabel := entryLabel artist album
        let label := entry.label
        if sourceLabel ≠ label then
          [s!"The source files are tagged '{sourceLabel}'; the library entry " ++
            s!"is '{label}'."]
        else []
    | _, _ => [])

/-- `preview`, of an entry that was found. -/
def previewEntry (beets : Beets) (world : BeetsWorld)
    (target : CleanSlateTarget) (entry : Entry) (sourcePath : OsPath)
    (downloadsPath : OsPath) (allowFewerFiles : Bool)
    (preserveFields : List String) : CleanSlatePreview :=
  let preserved := preservedFields entry preserveFields
  let present := entry.items.filter (fileExists world.tree)
  let missing := entry.items.filter fun item => !fileExists world.tree item
  let source := normalizedSource world.tree sourcePath
  let scan := scanSource beets world target source downloadsPath
  let plan := deletionPlan world.library world.tree entry source
  let tracksExpected :=
    if target.subject = .album then expectedTracks beets entry.items else none
  { subject := target.subject
    beetsId := target.beetsId
    label := entry.label
    itemCount := entry.items.length
    filesPresent := present.length
    missingPaths := missing.map fun item => displayPath item.path
    expectedTracks := tracksExpected
    filesToDelete := plan.toDelete.map displayPath
    filesKeptOutsideLibrary := plan.kept.map displayPath
    artToDelete := plan.art.map displayPath
    flexibleAttributesLost :=
      flexibleAttributes entry (StrDict.keys preserved)
    fieldsPreserved := preserved
    sourcePath := displayLocation source
    sourceAudioFiles := scan.audioFiles
    sourceAlbumGroups := scan.albumGroups
    warnings := previewWarnings target entry scan present.length
      missing.length tracksExpected
    errors := trackErrors target entry ++ scan.errors
    needsConfirmation := scan.errors.isEmpty &&
      decide (scan.audioFiles < present.length) && !allowFewerFiles }

/-- The failure of a target that names no entry. -/
def entryNotFound (target : CleanSlateTarget) : CleanSlateFailure :=
  let subject := target.subject.word
  let beetsId := target.beetsId
  .refused .notFound s!"No beets {subject} with id {beetsId}." none

/-- `preview`. -/
def preview (beets : Beets) (world : BeetsWorld) (target : CleanSlateTarget)
    (sourcePath : OsPath) (downloadsPath : OsPath) (allowFewerFiles : Bool)
    (preserveFields : List String) :
    Except CleanSlateFailure CleanSlatePreview :=
  match loadEntry beets world.library target with
  | none => .error (entryNotFound target)
  | some entry => .ok (previewEntry beets world target entry sourcePath
      downloadsPath allowFewerFiles preserveFields)

/-- `require_ok`. -/
def requireOk (plan : CleanSlatePreview) : Except CleanSlateFailure Unit :=
  if !plan.errors.isEmpty then
    .error (.refused .invalid (" ".intercalate plan.errors) (some plan))
  else if plan.needsConfirmation then
    .error (.refused .needsConfirmation
      ("The source has fewer audio files than the library entry has on " ++
        "disk; set allow_fewer_files to proceed.") (some plan))
  else .ok ()

/-- The item rows that belong to the entry of a target. -/
def CleanSlateTarget.ownsItem (target : CleanSlateTarget) (item : Item) :
    Bool :=
  match target.subject with
  | .album => decide (item.albumId = some target.beetsId)
  | .track => decide (item.id = target.beetsId)

/-- The album row that belongs to the entry of a target. -/
def CleanSlateTarget.ownsAlbum (target : CleanSlateTarget) (album : Album) :
    Bool :=
  match target.subject with
  | .album => decide (album.id = target.beetsId)
  | .track => false

theorem mem_items_of_loadEntry {beets : Beets} {library : Library}
    {target : CleanSlateTarget} {entry : Entry}
    (hentry : loadEntry beets library target = some entry) (item : Item) :
    item ∈ entry.items ↔
      item ∈ library.items.rows ∧ target.ownsItem item = true := by
  unfold loadEntry at hentry
  unfold CleanSlateTarget.ownsItem
  cases hsubject : target.subject with
  | album =>
      simp only [hsubject, Option.map_eq_some_iff] at hentry
      obtain ⟨album, hget, rfl⟩ := hentry
      have hid := (KeyedTable.get?_eq_some_iff.mp hget).2
      rw [Library.mem_itemsOf, hid, decide_eq_true_eq]
  | track =>
      simp only [hsubject, Option.map_eq_some_iff] at hentry
      obtain ⟨found, hget, rfl⟩ := hentry
      obtain ⟨hmem, hid⟩ := KeyedTable.get?_eq_some_iff.mp hget
      rw [List.mem_singleton, decide_eq_true_eq]
      constructor
      · rintro rfl
        exact ⟨hmem, hid⟩
      · rintro ⟨hrow, hsame⟩
        exact KeyedTable.eq_of_key hrow hmem (hsame.trans hid.symm)

theorem id_not_mem_of_loadEntry {beets : Beets} {library : Library}
    {target : CleanSlateTarget} {entry : Entry}
    (hentry : loadEntry beets library target = some entry) {row : Item}
    (hrow : row ∈ library.items.rows) :
    row.id ∉ entry.items.map Item.id ↔ target.ownsItem row = false := by
  rw [← Bool.not_eq_true, not_iff_not, List.mem_map]
  constructor
  · rintro ⟨item, hitem, hid⟩
    have hboth := (mem_items_of_loadEntry hentry item).mp hitem
    rw [KeyedTable.eq_of_key hrow hboth.1 hid.symm]
    exact hboth.2
  · intro hown
    exact ⟨row, (mem_items_of_loadEntry hentry row).mpr ⟨hrow, hown⟩, rfl⟩

theorem album_eq_some_of_loadEntry {beets : Beets} {library : Library}
    {target : CleanSlateTarget} {entry : Entry}
    (hentry : loadEntry beets library target = some entry) (album : Album) :
    entry.album = some album ↔
      album ∈ library.albums.rows ∧ target.ownsAlbum album = true := by
  unfold loadEntry at hentry
  unfold CleanSlateTarget.ownsAlbum
  cases hsubject : target.subject with
  | album =>
      simp only [hsubject, Option.map_eq_some_iff] at hentry
      obtain ⟨found, hget, rfl⟩ := hentry
      obtain ⟨hmem, hid⟩ := KeyedTable.get?_eq_some_iff.mp hget
      rw [Option.some.injEq, decide_eq_true_eq]
      constructor
      · rintro rfl
        exact ⟨hmem, hid⟩
      · rintro ⟨hrow, hsame⟩
        exact KeyedTable.eq_of_key hmem hrow (hid.trans hsame.symm)
  | track =>
      simp only [hsubject, Option.map_eq_some_iff] at hentry
      obtain ⟨item, _, rfl⟩ := hentry
      simp

/-- Only an album can have no items. -/
theorem album_of_no_items {beets : Beets} {library : Library}
    {target : CleanSlateTarget} {entry : Entry}
    (hentry : loadEntry beets library target = some entry)
    (hitems : entry.items = []) : ∃ album, entry.album = some album := by
  unfold loadEntry at hentry
  split at hentry
  · obtain ⟨album, _, rfl⟩ := Option.map_eq_some_iff.mp hentry
    exact ⟨album, rfl⟩
  · obtain ⟨item, _, rfl⟩ := Option.map_eq_some_iff.mp hentry
    cases hitems

section Plan

variable {library : Library} {tree : FileTree String} {entry : Entry}
  {source : Location String} {path : OsPath}

theorem deletable_iff :
    deletable library source path = true ↔
      library.directory <+: normpath path ∧ ¬ source <+: normpath path := by
  simp only [deletable, Bool.and_eq_true, Bool.not_eq_true', inside_iff]
  rw [← Bool.not_eq_true, inside_iff]

theorem mem_toDelete_iff :
    path ∈ (deletionPlan library tree entry source).toDelete ↔
      (∃ item ∈ entry.items, item.path = path) ∧
        tree.pathExists path = true ∧
        deletable library source path = true := by
  simp only [deletionPlan, List.mem_filter, List.mem_map, fileExists]
  constructor
  · rintro ⟨⟨item, ⟨hitem, hexists⟩, rfl⟩, hdeletable⟩
    exact ⟨⟨item, hitem, rfl⟩, hexists, hdeletable⟩
  · rintro ⟨⟨item, hitem, rfl⟩, hexists, hdeletable⟩
    exact ⟨⟨item, ⟨hitem, hexists⟩, rfl⟩, hdeletable⟩

theorem art_eq_some_iff :
    (deletionPlan library tree entry source).art = some path ↔
      entry.album.bind Album.artpath = some path ∧
        tree.pathExists path = true ∧
        deletable library source path = true := by
  simp only [deletionPlan, Option.filter_eq_some_iff, Bool.and_eq_true]

end Plan

section Accepted

variable {beets : Beets} {world : BeetsWorld} {target : CleanSlateTarget}
  {sourcePath downloadsPath : OsPath} {allowFewerFiles : Bool}
  {preserveFields : List String}

theorem preview_eq_ok_iff {plan : CleanSlatePreview} :
    preview beets world target sourcePath downloadsPath allowFewerFiles
        preserveFields = .ok plan ↔
      ∃ entry, loadEntry beets world.library target = some entry ∧
        previewEntry beets world target entry sourcePath downloadsPath
          allowFewerFiles preserveFields = plan := by
  unfold preview
  cases loadEntry beets world.library target <;> simp

theorem requireOk_eq_ok_iff {plan : CleanSlatePreview} {checked : Unit} :
    requireOk plan = .ok checked ↔ plan.ok = true := by
  unfold requireOk CleanSlatePreview.ok
  cases plan.errors.isEmpty <;> cases plan.needsConfirmation <;> simp

/-- A scan without errors found its source outside the beets directory. -/
theorem outside_of_scan {source : Location String}
    (hscan : (scanSource beets world target source downloadsPath).errors =
      []) : ¬ world.library.directory <+: source := by
  intro hinside
  have hplace : sourcePlaceErrors world target source
      (world.tree.realpath downloadsPath) ≠ [] := by
    simp [sourcePlaceErrors, inside_iff.mpr hinside]
  have hsome : (sourcePlaceErrors world target source
      (world.tree.realpath downloadsPath)).isEmpty = false := by
    simpa using hplace
  simp only [scanSource, hsome, Bool.false_eq_true, if_false] at hscan
  split at hscan
  · exact hplace hscan
  · cases hscan

/-- What the `ok` of a preview rests on: no error of the scan, and enough
files in the source unless fewer are allowed. -/
theorem scan_of_previewEntry {entry : Entry}
    (hok : (previewEntry beets world target entry sourcePath downloadsPath
      allowFewerFiles preserveFields).ok = true) :
    (scanSource beets world target (normalizedSource world.tree sourcePath)
        downloadsPath).errors = [] ∧
      (allowFewerFiles = false →
        (entry.items.filter (fileExists world.tree)).length ≤
          (scanSource beets world target
            (normalizedSource world.tree sourcePath)
            downloadsPath).audioFiles) := by
  simp only [CleanSlatePreview.ok, previewEntry, Bool.and_eq_true,
    Bool.not_eq_true', List.isEmpty_iff, List.append_eq_nil_iff] at hok
  obtain ⟨⟨_, herrors⟩, hconfirm⟩ := hok
  refine ⟨herrors, fun hallow => ?_⟩
  rw [herrors, hallow] at hconfirm
  simp only [List.isEmpty_nil, Bool.true_and, Bool.not_false, Bool.and_true,
    decide_eq_false_iff_not] at hconfirm
  exact Nat.le_of_not_lt hconfirm

end Accepted

end Beetkeeper
