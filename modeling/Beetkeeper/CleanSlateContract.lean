/-
What a clean slate does on a disk without links: the files of the entry it
deletes are those its preview listed, they lie where the rules say, the rows
it removes are the entry's, and it never deletes more files than the source
can replace unless it was told to.  Pruning may take more, as clutter.
-/
import Mathlib.Data.List.Perm.Subperm
import Beetkeeper.CleanSlateRemoval

namespace Beetkeeper

open LexicalPath FileTree

/-- Paths as beets stores them: in normal form. -/
structure Library.PathsNormal (library : Library) : Prop where
  items : ∀ item ∈ library.items.rows,
    spell (normpath item.path) = item.path
  art : ∀ album ∈ library.albums.rows, ∀ path ∈ album.artpath,
    spell (normpath path) = path

/-- The file was there and is there no more. -/
def Gone (before after : FileTree String) (path : OsPath) : Prop :=
  before.pathExists path = true ∧ after.pathExists path = false

/-- The readable audio files at or under a location. -/
def BeetsWorld.readableUnder (world : BeetsWorld) (source : Location String) :
    List (Location String) :=
  world.tree.files.filter fun file =>
    inside file source && (world.media file).isSome

/-- Clutter of a folder in the beets directory that holds nothing else when
the paths are gone. -/
def PrunedClutter (beets : Beets) (world : BeetsWorld) (paths : List OsPath)
    (location : Location String) : Prop :=
  ∃ folder n rest, location = folder ++ n :: rest ∧
    beets.isClutter n = true ∧ world.library.directory <+: folder ∧
    folder ∈ world.tree.dirs ∧
    Doomed paths (paths.map List.dropLast) world.library.directory
      beets.isClutter world.tree folder

/-- What a clean slate has done, against what its preview announced: `files`
and `art` are the paths the preview listed. -/
structure CleanSlateDone (beets : Beets) (before after : BeetsWorld)
    (target : CleanSlateTarget) (sourcePath : OsPath)
    (plan : CleanSlatePreview) (allowFewerFiles : Bool)
    (files : List OsPath) (art : Option OsPath) : Prop where
  files_listed : plan.filesToDelete = files.map displayPath
  art_listed : plan.artToDelete = art.map displayPath
  /-- what was listed is gone -/
  listed_gone : ∀ path, path ∈ files ∨ path ∈ art →
    Gone before.tree after.tree path
  /-- of the entry's files exactly the listed ones are gone -/
  files_gone : ∀ item ∈ before.library.items.rows,
    target.ownsItem item = true →
    (Gone before.tree after.tree item.path ↔ item.path ∈ files)
  /-- its art is gone exactly if it was listed -/
  art_gone : ∀ album ∈ before.library.albums.rows,
    target.ownsAlbum album = true → ∀ path ∈ album.artpath,
    (Gone before.tree after.tree path ↔ path ∈ art)
  /-- a file of any other row that is gone was listed or went as clutter -/
  row_files : ∀ path,
    (∃ item ∈ before.library.items.rows, item.path = path) ∨
      (∃ album ∈ before.library.albums.rows, album.artpath = some path) →
    normpath path ∈ before.tree.files → normpath path ∉ after.tree.files →
    path ∈ files ∨ path ∈ art ∨
      PrunedClutter beets before (files ++ art.toList) (normpath path)
  /-- any further file that is gone is such clutter -/
  others : ∀ location ∈ before.tree.files, location ∉ after.tree.files →
    (∃ path, (path ∈ files ∨ path ∈ art) ∧ location = normpath path) ∨
      PrunedClutter beets before (files ++ art.toList) location
  /-- what was listed lay in the beets directory and not under the source -/
  placed : ∀ path, path ∈ files ∨ path ∈ art →
    before.library.directory <+: normpath path ∧
      ¬ before.tree.realpath sourcePath <+: normpath path
  /-- exactly the rows of the entry are gone -/
  itemRows : ∀ row, row ∈ after.library.items.rows ↔
    row ∈ before.library.items.rows ∧ target.ownsItem row = false
  albumRows : ∀ row, row ∈ after.library.albums.rows ↔
    row ∈ before.library.albums.rows ∧ target.ownsAlbum row = false
  /-- no more files of the entry are gone than readable audio files are under
  the source -/
  count : allowFewerFiles = false → ∀ gone : List (Location String),
    gone.Nodup →
    (∀ location ∈ gone, ∃ item ∈ before.library.items.rows,
      target.ownsItem item = true ∧ normpath item.path = location ∧
        Gone before.tree after.tree item.path) →
    gone.length ≤
      (before.readableUnder (before.tree.realpath sourcePath)).length

/-- No deletion fails: the operating system refuses nothing, and no path of
the library is that of a directory. -/
structure NothingRefused (beets : Beets) (world : BeetsWorld) : Prop where
  permitted : ∀ tree path, beets.refuses tree path = none
  items : ∀ item ∈ world.library.items.rows,
    world.tree.pathIsDir item.path = false
  art : ∀ album ∈ world.library.albums.rows, ∀ path ∈ album.artpath,
    world.tree.pathIsDir path = false

section Readable

variable {world : BeetsWorld}

/-- Without links a file that can be read is read at its own place. -/
theorem fromPath_isSome_iff (hlinks : world.tree.links = [])
    {file : Location String} (hsome : (world.fromPath file).isSome = true) :
    file ∈ world.tree.files ∧ (world.media file).isSome = true := by
  obtain ⟨tags, htags⟩ := Option.isSome_iff_exists.mp hsome
  obtain ⟨place, hresolve, hread⟩ := Option.bind_eq_some_iff.mp htags
  have hplace := resolve?_of_links_nil hlinks hresolve
  rw [normpath_spell] at hplace
  subst hplace
  rw [Option.ite_none_right_eq_some, isFile_iff] at hread
  exact ⟨hread.1, Option.isSome_iff_exists.mpr ⟨tags, hread.2⟩⟩

theorem readableItems_length_le (hlinks : world.tree.links = [])
    {source : Location String} {files : List (Location String)}
    (hnodup : files.Nodup) (hbelow : ∀ file ∈ files, source <+: file) :
    (readableItems world files).length ≤
      (world.readableUnder source).length := by
  have hlength : (readableItems world files).length =
      (files.filter fun file => (world.fromPath file).isSome).length := by
    rw [readableItems, List.length_filterMap_eq_countP,
      List.countP_eq_length_filter]
  rw [hlength]
  refine ((hnodup.filter _).subperm fun file hmem => ?_).length_le
  obtain ⟨hfile, hsome⟩ := List.mem_filter.mp hmem
  obtain ⟨hthere, hmedia⟩ := fromPath_isSome_iff hlinks hsome
  refine List.mem_filter.mpr ⟨hthere, ?_⟩
  rw [inside_iff.mpr (hbelow file hfile), hmedia, Bool.and_true]

/-- The scan counts no more files than there are. -/
theorem audioFiles_le (beets : Beets) (hlinks : world.tree.links = [])
    (target : CleanSlateTarget) (source : Location String)
    (downloadsPath : OsPath) :
    (scanSource beets world target source downloadsPath).audioFiles ≤
      (world.readableUnder source).length := by
  unfold scanSource
  split
  · dsimp only
    split
    · split
      · exact readableItems_length_le hlinks
          (beets.albumsInDir_nodup world.tree source)
          (beets.albumsInDir_below world.tree source)
      · refine readableItems_length_le hlinks (List.nodup_singleton source) ?_
        intro file hmem
        rw [List.mem_singleton.mp hmem]
    · exact Nat.zero_le _
  · exact Nat.zero_le _

end Readable

section

variable {beets : Beets} {world after : BeetsWorld}
  {target : CleanSlateTarget} {sourcePath : OsPath}

theorem entry_of_mem_paths {path : OsPath}
    (hpath : path ∈ (planOf beets world target sourcePath).paths) :
    ∃ entry, loadEntry beets world.library target = some entry := by
  unfold planOf at hpath
  cases hentry : loadEntry beets world.library target with
  | none => simp [hentry, DeletionPlan.paths] at hpath
  | some entry => exact ⟨entry, rfl⟩

theorem planOf_eq {entry : Entry}
    (hentry : loadEntry beets world.library target = some entry) :
    planOf beets world target sourcePath =
      deletionPlan world.library world.tree entry
        (world.tree.realpath sourcePath) := by
  rw [planOf, hentry]
  rfl

theorem mem_paths_planOf {path : OsPath}
    (hpath : path ∈ (planOf beets world target sourcePath).paths) :
    world.tree.pathExists path = true ∧
      deletable world.library (world.tree.realpath sourcePath) path = true := by
  obtain ⟨entry, hentry⟩ := entry_of_mem_paths hpath
  rw [planOf_eq hentry] at hpath
  rcases DeletionPlan.mem_paths.mp hpath with hfile | hart
  · exact (mem_toDelete_iff.mp hfile).2
  · exact (art_eq_some_iff.mp hart).2

/-- On a disk without links, what a removal takes away lies in the beets
directory; and nothing goes when that directory is under the source. -/
theorem inside_of_wipeReason (hlinks : world.tree.links = [])
    {clutter : String → Bool} {location : Location String}
    (hreason : WipeReason (planOf beets world target sourcePath).paths
      world.library.directory clutter world.tree location) :
    world.library.directory <+: location ∧
      ¬ world.tree.realpath sourcePath <+: world.library.directory := by
  obtain ⟨path, hpath, hplace⟩ := hreason
  obtain ⟨hinside, hnot⟩ := deletable_iff.mp (mem_paths_planOf hpath).2
  have hsource : ¬ world.tree.realpath sourcePath <+:
      world.library.directory := fun hpre => hnot (hpre.trans hinside)
  refine ⟨?_, hsource⟩
  rcases hplace with hentryAt | ⟨spelled, folder, hroot, _, _, hresolve, _, hin⟩
  · rw [entryAt_of_links_nil hlinks hentryAt]
    exact hinside
  · have hfolder := resolve?_of_links_nil hlinks hresolve
    rw [normpath_spell] at hfolder
    subst hfolder
    rcases hin with rfl | ⟨n, rest, rfl, _⟩
    · exact hroot
    · exact hroot.trans (List.prefix_append _ _)

/-- A path of the entry that the plan leaves alone survives the removal. -/
theorem kept_path_stays (hlinks : world.tree.links = [])
    (houtside : ¬ world.library.directory <+: world.tree.realpath sourcePath)
    (hremoved : Removed beets (planOf beets world target sourcePath).paths
      world after) {path : OsPath} (hnormal : spell (normpath path) = path)
    (hexists : world.tree.pathExists path = true)
    (hkept : deletable world.library (world.tree.realpath sourcePath) path =
      false) : after.tree.pathExists path = true := by
  obtain ⟨place, hresolve⟩ := Option.isSome_iff_exists.mp hexists
  have hplace := resolve?_of_links_nil hlinks hresolve
  subst hplace
  rw [← hnormal] at hresolve ⊢
  rw [normpath_spell] at hresolve
  refine Option.isSome_iff_exists.mpr ⟨normpath path,
    hremoved.tree.resolve?_stays hlinks (fun location hpre hreason => ?_)
      hresolve⟩
  obtain ⟨hinside, hsource⟩ := inside_of_wipeReason hlinks hreason.wipeReason
  have hlibrary := hinside.trans hpre
  have hunder : world.tree.realpath sourcePath <+: normpath path := by
    by_contra hnot
    rw [deletable_iff.mpr ⟨hlibrary, hnot⟩] at hkept
    cases hkept
  -- both are above the path, so one of the two is above the other
  rcases List.prefix_or_prefix_of_prefix hlibrary hunder with habove | habove
  · exact houtside habove
  · exact hsource habove

/-- A path of the entry is gone after the removal exactly if it was planned. -/
theorem gone_iff_planned (hlinks : world.tree.links = [])
    (houtside : ¬ world.library.directory <+: world.tree.realpath sourcePath)
    {removed : RemovedEntry}
    (hremove : removeEntry beets world target sourcePath =
      (after, .ok removed)) {path : OsPath}
    (hnormal : spell (normpath path) = path) {planned : Prop}
    (hplanned : planned ↔ world.tree.pathExists path = true ∧
      deletable world.library (world.tree.realpath sourcePath) path = true)
    (hpath : planned → path ∈ (planOf beets world target sourcePath).paths) :
    Gone world.tree after.tree path ↔ planned := by
  have hremoved := removeEntry_removed beets world target sourcePath
  rw [hremove] at hremoved
  constructor
  · rintro ⟨hexists, hgone⟩
    refine hplanned.mpr ⟨hexists, ?_⟩
    by_contra hkept
    rw [Bool.not_eq_true] at hkept
    rw [kept_path_stays hlinks houtside hremoved hnormal hexists hkept]
      at hgone
    cases hgone
  · intro hin
    exact ⟨(hplanned.mp hin).1,
      (Attempted.of_removeEntry (hpath hin) hremove).gone_of_links_nil hlinks⟩

/-- A file that is gone was planned, or clutter of a pruned folder. -/
theorem removed_file (hlinks : world.tree.links = [])
    (hremoved : Removed beets (planOf beets world target sourcePath).paths
      world after) {location : Location String}
    (hfile : location ∈ world.tree.files)
    (hgone : location ∉ after.tree.files) :
    (∃ path ∈ (planOf beets world target sourcePath).paths,
      location = normpath path) ∨
    PrunedClutter beets world (planOf beets world target sourcePath).paths
      location := by
  have hdoomed : Doomed (planOf beets world target sourcePath).paths
      ((planOf beets world target sourcePath).paths.map List.dropLast)
      world.library.directory beets.isClutter world.tree location := by
    by_contra hnot
    exact hgone (hremoved.tree.file_stays hfile hnot)
  cases hdoomed with
  | named hpath hentry _ =>
      exact Or.inl ⟨_, hpath, entryAt_of_links_nil hlinks hentry⟩
  | emptied _ _ _ _ _ hfolder _ =>
      exact absurd hfolder (not_mem_dirs_of_mem_files hfile)
  | clutter hgoes hfolder hn =>
      exact Or.inr ⟨_, _, _, rfl, hn,
        (inside_of_wipeReason hlinks hgoes.wipeReason).1, hfolder, hgoes⟩

theorem normal_of_mem_paths (hnormal : world.library.PathsNormal)
    {path : OsPath}
    (hpath : path ∈ (planOf beets world target sourcePath).paths) :
    spell (normpath path) = path := by
  obtain ⟨entry, hentry⟩ := entry_of_mem_paths hpath
  rw [planOf_eq hentry] at hpath
  rcases DeletionPlan.mem_paths.mp hpath with hfile | hart
  · obtain ⟨item, hitem, rfl⟩ := (mem_toDelete_iff.mp hfile).1
    exact hnormal.items item ((mem_items_of_loadEntry hentry item).mp hitem).1
  · obtain ⟨album, halbum, hpath⟩ :=
      Option.bind_eq_some_iff.mp (art_eq_some_iff.mp hart).1
    have hrow := ((album_eq_some_of_loadEntry hentry album).mp halbum).1
    exact hnormal.art album hrow path hpath

/-- A path of the library whose file is gone was planned, or its file was
clutter. -/
theorem removed_path (hlinks : world.tree.links = [])
    (hnormal : world.library.PathsNormal)
    (hremoved : Removed beets (planOf beets world target sourcePath).paths
      world after) {path : OsPath} (hpath : spell (normpath path) = path)
    (hfile : normpath path ∈ world.tree.files)
    (hgone : normpath path ∉ after.tree.files) :
    path ∈ (planOf beets world target sourcePath).paths ∨
    PrunedClutter beets world (planOf beets world target sourcePath).paths
      (normpath path) := by
  rcases removed_file hlinks hremoved hfile hgone with
    ⟨planned, hplanned, hsame⟩ | hclutter
  · have hspelled := congrArg spell hsame
    rw [hpath, normal_of_mem_paths hnormal hplanned] at hspelled
    rw [hspelled]
    exact Or.inl hplanned
  · exact Or.inr hclutter

/-- When nothing is refused the planned paths can be removed. -/
theorem NothingRefused.removable (hnothing : NothingRefused beets world)
    (hnormal : world.library.PathsNormal) :
    ∀ path ∈ (planOf beets world target sourcePath).paths,
      Removable beets world.tree path := by
  intro path hpath
  refine ⟨normal_of_mem_paths hnormal hpath, ?_,
    fun tree => hnothing.permitted tree path⟩
  obtain ⟨file, hresolve⟩ :=
    Option.isSome_iff_exists.mp (mem_paths_planOf hpath).1
  have hnotDir : world.tree.pathIsDir path = false := by
    obtain ⟨entry, hentry⟩ := entry_of_mem_paths hpath
    rw [planOf_eq hentry] at hpath
    rcases DeletionPlan.mem_paths.mp hpath with hfile | hart
    · obtain ⟨item, hitem, rfl⟩ := (mem_toDelete_iff.mp hfile).1
      exact hnothing.items item
        ((mem_items_of_loadEntry hentry item).mp hitem).1
    · obtain ⟨album, halbum, hpath⟩ :=
        Option.bind_eq_some_iff.mp (art_eq_some_iff.mp hart).1
      exact hnothing.art album
        ((album_eq_some_of_loadEntry hentry album).mp halbum).1 path hpath
  rw [pathIsDir, hresolve, Option.any_some] at hnotDir
  refine ⟨file, (exists_of_resolve? hresolve).resolve_right ?_, hresolve⟩
  rw [hnotDir]
  exact Bool.false_ne_true

theorem removed_count {files : List OsPath} {bound : Nat}
    (hlength : files.length ≤ bound)
    (hfiles : ∀ item ∈ world.library.items.rows, target.ownsItem item = true →
      (Gone world.tree after.tree item.path ↔ item.path ∈ files))
    {gone : List (Location String)} (hnodup : gone.Nodup)
    (hgone : ∀ location ∈ gone, ∃ item ∈ world.library.items.rows,
      target.ownsItem item = true ∧ normpath item.path = location ∧
        Gone world.tree after.tree item.path) :
    gone.length ≤ bound := by
  have hsubset : gone ⊆ files.map normpath := by
    intro location hmem
    obtain ⟨item, hrow, hown, rfl, hitem⟩ := hgone location hmem
    exact List.mem_map.mpr ⟨item.path, (hfiles item hrow hown).mp hitem, rfl⟩
  have hle := (hnodup.subperm hsubset).length_le
  rw [List.length_map] at hle
  exact hle.trans hlength

theorem files_gone_iff {entry : Entry}
    (hentry : loadEntry beets world.library target = some entry)
    (hlinks : world.tree.links = []) (hnormal : world.library.PathsNormal)
    (houtside : ¬ world.library.directory <+: world.tree.realpath sourcePath)
    {removed : RemovedEntry}
    (hremove : removeEntry beets world target sourcePath =
      (after, .ok removed)) {item : Item}
    (hrow : item ∈ world.library.items.rows)
    (hown : target.ownsItem item = true) :
    Gone world.tree after.tree item.path ↔
      item.path ∈ (planOf beets world target sourcePath).toDelete := by
  have hitem := (mem_items_of_loadEntry hentry item).mpr ⟨hrow, hown⟩
  refine gone_iff_planned hlinks houtside hremove
    (hnormal.items item hrow) ?_
    (fun h => DeletionPlan.mem_paths.mpr (Or.inl h))
  rw [planOf_eq hentry, mem_toDelete_iff]
  exact and_iff_right ⟨item, hitem, rfl⟩

theorem art_gone_iff {entry : Entry}
    (hentry : loadEntry beets world.library target = some entry)
    (hlinks : world.tree.links = []) (hnormal : world.library.PathsNormal)
    (houtside : ¬ world.library.directory <+: world.tree.realpath sourcePath)
    {removed : RemovedEntry}
    (hremove : removeEntry beets world target sourcePath =
      (after, .ok removed)) {album : Album}
    (hrow : album ∈ world.library.albums.rows)
    (hown : target.ownsAlbum album = true) {path : OsPath}
    (hart : path ∈ album.artpath) :
    Gone world.tree after.tree path ↔
      path ∈ (planOf beets world target sourcePath).art := by
  have halbum : entry.album.bind Album.artpath = some path := by
    rw [(album_eq_some_of_loadEntry hentry album).mpr ⟨hrow, hown⟩]
    exact hart
  refine gone_iff_planned hlinks houtside hremove
    (hnormal.art album hrow path hart) ?_
    (fun h => DeletionPlan.mem_paths.mpr (Or.inr h))
  rw [planOf_eq hentry, Option.mem_def, art_eq_some_iff]
  exact and_iff_right halbum

/-- What a successful removal has done when its preview was `ok`. -/
theorem removeEntry_done {entry : Entry}
    (hentry : loadEntry beets world.library target = some entry)
    (hlinks : world.tree.links = []) (hnormal : world.library.PathsNormal)
    {downloadsPath : OsPath} {allowFewerFiles : Bool}
    {preserveFields : List String} {plan : CleanSlatePreview}
    (hplan : plan = previewEntry beets world target entry sourcePath
      downloadsPath allowFewerFiles preserveFields) (hok : plan.ok = true)
    {removed : RemovedEntry}
    (hremove : removeEntry beets world target sourcePath =
      (after, .ok removed)) :
    CleanSlateDone beets world after target sourcePath plan allowFewerFiles
      (planOf beets world target sourcePath).toDelete
      (planOf beets world target sourcePath).art := by
  subst hplan
  obtain ⟨herrors, hfewer⟩ := scan_of_previewEntry hok
  have houtside := outside_of_scan herrors
  have hremoved := removeEntry_removed beets world target sourcePath
  rw [hremove] at hremoved
  have hfiles : ∀ item ∈ world.library.items.rows,
      target.ownsItem item = true →
      (Gone world.tree after.tree item.path ↔
        item.path ∈ (planOf beets world target sourcePath).toDelete) :=
    fun item hrow hown =>
      files_gone_iff hentry hlinks hnormal houtside hremove hrow hown
  obtain ⟨hitemRows, halbumRows⟩ := removeEntry_rows hremove
  refine ⟨?_, ?_, ?_, hfiles, ?_, ?_, ?_, ?_, hitemRows, halbumRows, ?_⟩
  · rw [planOf_eq hentry]
    rfl
  · rw [planOf_eq hentry]
    rfl
  · intro path hpath
    have hplanned := DeletionPlan.mem_paths.mpr hpath
    exact ⟨(mem_paths_planOf hplanned).1,
      (Attempted.of_removeEntry hplanned hremove).gone_of_links_nil hlinks⟩
  · intro album hrow hown path hart
    exact art_gone_iff hentry hlinks hnormal houtside hremove hrow hown hart
  · intro path hrow hfile hgone
    have hpath : spell (normpath path) = path := by
      rcases hrow with ⟨item, hitem, rfl⟩ | ⟨album, halbum, hart⟩
      · exact hnormal.items item hitem
      · exact hnormal.art album halbum path hart
    rcases removed_path hlinks hnormal hremoved hpath hfile hgone with
      hplanned | hclutter
    · exact (DeletionPlan.mem_paths.mp hplanned).imp_right Or.inl
    · exact Or.inr (Or.inr hclutter)
  · intro location hfile hgone
    rcases removed_file hlinks hremoved hfile hgone with
      ⟨path, hpath, rfl⟩ | hclutter
    · exact Or.inl ⟨path, DeletionPlan.mem_paths.mp hpath, rfl⟩
    · exact Or.inr hclutter
  · intro path hpath
    exact deletable_iff.mp
      (mem_paths_planOf (DeletionPlan.mem_paths.mpr hpath)).2
  · intro hallow gone hnodup hgone
    refine removed_count ?_ hfiles hnodup hgone
    refine le_trans ?_ ((hfewer hallow).trans
      (audioFiles_le beets hlinks target _ downloadsPath))
    rw [planOf_eq hentry]
    refine (List.length_filter_le _ _).trans ?_
    rw [List.length_map]

end

/-- On a disk without links: a clean slate that is not cleared raises and
changes nothing; a cleared one, if no deletion fails, returns and has done
what its preview announced, apart from the clutter that pruning takes. -/
theorem clean_slate_does_what_it_previewed (beets : Beets)
    (settings : CleanSlateSettings) (job : ImportJob) (world : BeetsWorld)
    (hlinks : world.tree.links = []) (hnormal : world.library.PathsNormal) :
    ((∀ target path plan,
        ¬ Cleared beets settings job world target path plan) →
      ∃ failure, cleanSlateBlocking beets settings job world =
        (world, .error failure)) ∧
    (NothingRefused beets world →
      ∀ target path plan, Cleared beets settings job world target path plan →
      (∃ result,
        (cleanSlateBlocking beets settings job world).2 = .ok result) ∧
      ∃ files art, CleanSlateDone beets world
        (cleanSlateBlocking beets settings job world).1 target path plan
        job.cleanSlateAllowFewerFiles files art) := by
  refine ⟨cleanSlateBlocking_of_not_cleared, ?_⟩
  intro hnothing target path plan hcleared
  obtain ⟨entry, downloadsPath, hentry, hplan⟩ := hcleared.entry
  obtain ⟨hworld, hresult⟩ := cleanSlateBlocking_of_cleared hcleared
  obtain ⟨after, removed, hremove⟩ :=
    removeEntry_succeeds hentry (hnothing.removable hnormal)
  rw [hworld, hresult, hremove]
  exact ⟨⟨_, rfl⟩, _, _,
    removeEntry_done hentry hlinks hnormal hplan hcleared.ok hremove⟩

/-- beets with the shipped clutter and an operating system that refuses
nothing. -/
def plainBeets : Beets where
  perDiscNumbering := false
  clutter := ["Thumbs.DB", ".DS_Store"]
  sortItems := id
  sortItems_perm := fun items => List.Perm.refl items
  albumsInDir := fun tree source =>
    [tree.files.filter fun location => inside location source]
  albumsInDir_nodup := fun tree source => by
    have hfiles : tree.files.Nodup :=
      (List.nodup_append.mp (List.nodup_append.mp tree.entries_nodup).1).1
    simpa using hfiles.filter fun location => inside location source
  albumsInDir_below := fun tree source file hfile => by
    rw [List.flatten_singleton] at hfile
    exact inside_iff.mp (List.mem_filter.mp hfile).2
  fnmatch := fun name pattern => decide (name = pattern)
  refuses := fun _ _ => none
  pruneDirs := fun tree dir root patterns =>
    FileTree.pruneDirs root dir (fun name =>
      patterns.any fun pattern => decide (name = pattern)) tree
  pruneDirs_pruned := fun tree dir root _ =>
    FileTree.pruneDirs_pruned root dir _ tree

/-- An album with one track and its art, and a download of the track. -/
def albumTree : FileTree String where
  files := [["music", "Album", "01.mp3"], ["music", "Album", "cover.jpg"],
    ["downloads", "Album", "01.mp3"]]
  dirs := [["music"], ["music", "Album"], ["downloads"],
    ["downloads", "Album"]]
  links := []
  entries_nodup := by decide
  rooted := by decide
  physical := by decide

def albumRow : Album where
  id := 1
  albumartist := "Artist"
  album := "Album"
  artpath := some (spell ["music", "Album", "cover.jpg"])
  flex := []
  stamp := 1

def trackRow (path : OsPath) : Item where
  id := 1
  path := path
  albumId := some 1
  artist := "Artist"
  title := "One"
  tracktotal := 1
  disctotal := 1
  disc := 1
  flex := []
  stamp := 1

/-- A library in `/music` that holds the album, its track at a path. -/
def albumLibrary (path : OsPath) : Library where
  directory := ["music"]
  albums := ⟨[albumRow], by decide⟩
  items := ⟨[trackRow path], List.nodup_singleton _⟩

def albumWorld : BeetsWorld where
  library := albumLibrary (spell ["music", "Album", "01.mp3"])
  tree := albumTree
  media := fun _ => some ⟨"Artist", "Artist", "Album"⟩

def albumJob : ImportJob :=
  { importJob 1 [] with
    paths := [spell ["downloads", "Album"]]
    cleanSlateAlbumId := some 1 }

def downloadsSettings : CleanSlateSettings := ⟨some (spell ["downloads"]), []⟩

theorem albumWorld_normal : albumWorld.library.PathsNormal where
  items := by decide
  art := by decide

def albumPlan : CleanSlatePreview :=
  previewEntry plainBeets albumWorld ⟨.album, 1⟩
    ⟨"Artist - Album", some albumRow,
      [trackRow (spell ["music", "Album", "01.mp3"])]⟩
    (spell ["downloads", "Album"]) (spell ["downloads"]) false []

theorem albumJob_cleared :
    Cleared plainBeets downloadsSettings albumJob albumWorld ⟨.album, 1⟩
      (spell ["downloads", "Album"]) albumPlan where
  onePath := rfl
  oneTarget := rfl
  previewed := ⟨_, rfl, preview_eq_ok_iff.mpr ⟨_, by decide, rfl⟩⟩
  ok := by decide

theorem albumWorld_nothingRefused :
    NothingRefused plainBeets albumWorld where
  permitted := fun _ _ => rfl
  items := by decide
  art := by decide

/-- The clean slate of an album on a disk without links. -/
theorem album_clean_slate_does_what_it_previewed :
    albumWorld.tree.links = [] ∧ albumWorld.library.PathsNormal ∧
    NothingRefused plainBeets albumWorld ∧
    ∃ files art, CleanSlateDone plainBeets albumWorld
      (cleanSlateBlocking plainBeets downloadsSettings albumJob albumWorld).1
      ⟨.album, 1⟩ (spell ["downloads", "Album"]) albumPlan false files art :=
  ⟨rfl, albumWorld_normal, albumWorld_nothingRefused,
    ((clean_slate_does_what_it_previewed plainBeets downloadsSettings albumJob
      albumWorld rfl albumWorld_normal).2 albumWorld_nothingRefused _ _ _
      albumJob_cleared).2⟩

/-- A standalone track beside the album. -/
def otherRow (path : OsPath) : Item :=
  { trackRow path with id := 2, albumId := none }

/-- The album's track and another, at a path of its own. -/
def sharedLibrary (art path : OsPath) : Library where
  directory := ["music"]
  albums := ⟨[{ albumRow with artpath := some art }], List.nodup_singleton _⟩
  items := ⟨[trackRow (spell ["music", "Album", "01.mp3"]), otherRow path],
    by simp [trackRow, otherRow]⟩

/-- The other track's file is called like clutter in the album's folder. -/
def sharedFolderWorld : BeetsWorld where
  library := sharedLibrary (spell ["music", "Album", "cover.jpg"])
    (spell ["music", "Album", "Thumbs.DB"])
  tree :=
    { files := [["music", "Album", "01.mp3"], ["music", "Album", "Thumbs.DB"],
        ["downloads", "Album", "01.mp3"]]
      dirs := [["music"], ["music", "Album"], ["downloads"],
        ["downloads", "Album"]]
      links := []
      entries_nodup := by decide
      rooted := by decide
      physical := by decide }
  media := fun _ => some ⟨"Artist", "Artist", "Album"⟩

def sharedFolderPlan : CleanSlatePreview :=
  previewEntry plainBeets sharedFolderWorld ⟨.album, 1⟩
    ⟨"Artist - Album",
      some { albumRow with artpath := spell ["music", "Album", "cover.jpg"] },
      [trackRow (spell ["music", "Album", "01.mp3"])]⟩
    (spell ["downloads", "Album"]) (spell ["downloads"]) false []

/-- A clean slate in which nothing is refused, on a disk without links, takes
the file of another row, which its preview did not list. -/
theorem clean_slate_takes_an_unlisted_file :
    sharedFolderWorld.tree.links = [] ∧
    sharedFolderWorld.library.PathsNormal ∧
    NothingRefused plainBeets sharedFolderWorld ∧
    Cleared plainBeets downloadsSettings albumJob sharedFolderWorld
      ⟨.album, 1⟩ (spell ["downloads", "Album"]) sharedFolderPlan ∧
    ∃ item ∈ sharedFolderWorld.library.items.rows,
      Gone sharedFolderWorld.tree
        (cleanSlateBlocking plainBeets downloadsSettings albumJob
          sharedFolderWorld).1.tree item.path ∧
      displayPath item.path ∉ sharedFolderPlan.filesToDelete ∧
      displayPath item.path ∉ sharedFolderPlan.artToDelete := by
  refine ⟨rfl, ⟨by decide, by decide⟩, ⟨fun _ _ => rfl, by decide, by decide⟩,
    ⟨rfl, rfl, ⟨_, rfl, preview_eq_ok_iff.mpr ⟨_, by decide, rfl⟩⟩,
      by decide⟩,
    otherRow (spell ["music", "Album", "Thumbs.DB"]), by decide,
    ⟨by decide, by decide⟩, by decide, by decide⟩

end Beetkeeper
