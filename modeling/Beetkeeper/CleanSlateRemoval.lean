/-
The removal half of a clean slate and the worker's step around it: the guard
that runs the preview again, then the rows, the files and the art of the
entry.  A failure leaves behind what was removed before it.
-/
import Beetkeeper.CleanSlate

namespace Beetkeeper

open LexicalPath FileTree

/-- What `remove_entry` did. -/
structure RemovedEntry where
  target : CleanSlateTarget
  itemIds : List Nat
  deletedPaths : List String
  keptPaths : List String
  deletedArt : Option String
deriving Repr, DecidableEq

/-- The loop of `remove_entry` over the items of the entry. -/
def removeItems (beets : Beets) (toDelete : List OsPath) :
    BeetsWorld → List Item → BeetsWorld × Except FilesystemError Unit
  | world, [] => (world, .ok ())
  | world, item :: rest =>
      match beets.removeItem world item (decide (item.path ∈ toDelete)) with
      | (world, .ok ()) => removeItems beets toDelete world rest
      | (world, .error failure) => (world, .error failure)

/-- The album's row and then its art. -/
def removeAlbum (beets : Beets) (world : BeetsWorld) (album : Album)
    (art : Option OsPath) : BeetsWorld × Except FilesystemError Unit :=
  let world := { world with library := world.library.dropAlbum album.id }
  match art with
  | none => (world, .ok ())
  | some path =>
      match beets.deleteFile world.library.directory world.tree path with
      | .ok tree => ({ world with tree := tree }, .ok ())
      | .error failure => (world, .error failure)

/-- The removal of an entry's rows and files by a plan. -/
def removePlanned (beets : Beets) (world : BeetsWorld) (entry : Entry)
    (plan : DeletionPlan) : BeetsWorld × Except FilesystemError Unit :=
  match removeItems beets plan.toDelete world entry.items with
  | (world, .error failure) => (world, .error failure)
  | (world, .ok ()) =>
      match entry.album with
      | none => (world, .ok ())
      | some album => removeAlbum beets world album plan.art

/-- `remove_entry`. -/
def removeEntry (beets : Beets) (world : BeetsWorld)
    (target : CleanSlateTarget) (sourcePath : OsPath) :
    BeetsWorld × Except CleanSlateFailure RemovedEntry :=
  match loadEntry beets world.library target with
  | none => (world, .error (entryNotFound target))
  | some entry =>
      let plan := deletionPlan world.library world.tree entry
        (normalizedSource world.tree sourcePath)
      match removePlanned beets world entry plan with
      | (world, .error failure) => (world, .error (.filesystem failure))
      | (world, .ok ()) =>
          (world, .ok
            { target := target
              itemIds := entry.items.map Item.id
              deletedPaths := plan.toDelete.map displayPath
              keptPaths := plan.kept.map displayPath
              deletedArt := plan.art.map displayPath })

/-- The settings of a worker that a clean slate needs. -/
structure CleanSlateSettings where
  downloadsPath : Option OsPath
  preserveFields : List String

/-- The guard of `_clean_slate_blocking`: the target, the source and the
preview it goes on with. -/
def cleanSlateGuard (beets : Beets) (settings : CleanSlateSettings)
    (job : ImportJob) (world : BeetsWorld) :
    Except CleanSlateFailure
      (CleanSlateTarget × OsPath × CleanSlatePreview) :=
  match settings.downloadsPath with
  | none => .error (.refused .invalid
      "This worker has no downloads_path configured; clean slates need one."
      none)
  | some downloadsPath =>
      match job.paths with
      | [path] =>
          match CleanSlateTarget.fromIds job.cleanSlateAlbumId
              job.cleanSlateItemId with
          | .error message => .error (.badTarget message)
          | .ok target =>
              match preview beets world target path downloadsPath
                  job.cleanSlateAllowFewerFiles settings.preserveFields with
              | .error failure => .error failure
              | .ok plan => (requireOk plan).map fun _ => (target, path, plan)
      | _ => .error (.refused .invalid
          "A clean-slate job imports exactly one source path." none)

/-- `_clean_slate_blocking`, without its narration. -/
def cleanSlateBlocking (beets : Beets) (settings : CleanSlateSettings)
    (job : ImportJob) (world : BeetsWorld) :
    BeetsWorld × Except CleanSlateFailure (RemovedEntry × StrDict) :=
  match cleanSlateGuard beets settings job world with
  | .error failure => (world, .error failure)
  | .ok (target, path, plan) =>
      match removeEntry beets world target path with
      | (world, .error failure) => (world, .error failure)
      | (world, .ok removed) => (world, .ok (removed, plan.fieldsPreserved))

/-- The paths a plan deletes. -/
def DeletionPlan.paths (plan : DeletionPlan) : List OsPath :=
  plan.toDelete ++ plan.art.toList

theorem DeletionPlan.mem_paths {plan : DeletionPlan} {path : OsPath} :
    path ∈ plan.paths ↔ path ∈ plan.toDelete ∨ path ∈ plan.art := by
  rw [DeletionPlan.paths, List.mem_append, Option.mem_toList, Option.mem_def]

/-- The plan `remove_entry` follows. -/
def planOf (beets : Beets) (world : BeetsWorld) (target : CleanSlateTarget)
    (sourcePath : OsPath) : DeletionPlan :=
  match loadEntry beets world.library target with
  | none => ⟨[], [], none⟩
  | some entry => deletionPlan world.library world.tree entry
      (normalizedSource world.tree sourcePath)

section Deletion

variable {beets : Beets}

theorem removeFile_eq_ok_iff {tree next : FileTree String} {path : OsPath} :
    beets.removeFile tree path = .ok next ↔
      (tree.pathExists path = true ∧ beets.refuses tree path = none ∧
        tree.remove? path = some next) ∨
      (tree.pathExists path = false ∧ next = tree) := by
  unfold Beets.removeFile
  cases hexists : tree.pathExists path with
  | false => simp [eq_comm]
  | true =>
      cases hrefuses : beets.refuses tree path with
      | some reason => simp
      | none => cases hremove : tree.remove? path <;> simp

theorem deleteFile_eq_ok_iff {root : Location String}
    {tree next : FileTree String} {path : OsPath} :
    beets.deleteFile root tree path = .ok next ↔
      ∃ left, beets.removeFile tree path = .ok left ∧
        beets.pruneDirs left path.dropLast root beets.clutter = next := by
  unfold Beets.deleteFile
  cases beets.removeFile tree path <;> simp [Except.map]

/-- Deleting one of the planned paths is part of the planned removal. -/
theorem deleteFile_wiped {paths : List OsPath} {path : OsPath}
    (hpath : path ∈ paths) {root : Location String}
    {tree next : FileTree String}
    (hdelete : beets.deleteFile root tree path = .ok next) :
    Wiped paths root beets.isClutter tree next := by
  obtain ⟨left, hremove, rfl⟩ := deleteFile_eq_ok_iff.mp hdelete
  have hprune := Wiped.of_pruned hpath
    (beets.pruneDirs_pruned left path.dropLast root beets.clutter)
  rcases removeFile_eq_ok_iff.mp hremove with
    ⟨_, _, hremoved⟩ | ⟨_, rfl⟩
  · exact (Wiped.of_remove hpath hremoved).trans hprune
  · exact hprune

end Deletion

/-- What any part of a removal may do: rows go, files go by the plan, and
nothing is added. -/
structure Removed (beets : Beets) (paths : List OsPath)
    (before after : BeetsWorld) : Prop where
  tree : Wiped paths before.library.directory beets.isClutter before.tree
    after.tree
  directory : after.library.directory = before.library.directory
  media : after.media = before.media
  items : ∀ row ∈ after.library.items.rows, row ∈ before.library.items.rows
  albums : ∀ row ∈ after.library.albums.rows,
    row ∈ before.library.albums.rows

namespace Removed

variable {beets : Beets} {paths : List OsPath}

theorem refl (world : BeetsWorld) : Removed beets paths world world :=
  ⟨Reduced.refl _, rfl, rfl, fun _ h => h, fun _ h => h⟩

theorem trans {before middle after : BeetsWorld}
    (hfirst : Removed beets paths before middle)
    (hsecond : Removed beets paths middle after) :
    Removed beets paths before after where
  tree := hfirst.tree.trans (hfirst.directory ▸ hsecond.tree)
  directory := hsecond.directory.trans hfirst.directory
  media := hsecond.media.trans hfirst.media
  items := fun row hrow => hfirst.items row (hsecond.items row hrow)
  albums := fun row hrow => hfirst.albums row (hsecond.albums row hrow)

theorem dropItem (world : BeetsWorld) (id : Nat) :
    Removed beets paths world
      { world with library := world.library.dropItem id } :=
  ⟨Reduced.refl _, rfl, rfl, fun _ h => (KeyedTable.mem_delete.mp h).1,
    fun _ h => h⟩

theorem dropAlbum (world : BeetsWorld) (id : Nat) :
    Removed beets paths world
      { world with library := world.library.dropAlbum id } :=
  ⟨Reduced.refl _, rfl, rfl, fun _ h => h,
    fun _ h => (KeyedTable.mem_delete.mp h).1⟩

theorem deleteFile {path : OsPath} (hpath : path ∈ paths)
    {world : BeetsWorld} {next : FileTree String}
    (hdelete : beets.deleteFile world.library.directory world.tree path =
      .ok next) :
    Removed beets paths world { world with tree := next } :=
  ⟨deleteFile_wiped hpath hdelete, rfl, rfl, fun _ h => h, fun _ h => h⟩

theorem wipeReason {before after : BeetsWorld}
    (hremoved : Removed beets paths before after) :
    Reduced (WipeReason paths before.library.directory beets.isClutter)
      before.tree after.tree :=
  hremoved.tree.imp fun _ _ => Doomed.wipeReason

end Removed

section Removal

variable {beets : Beets} {paths : List OsPath}

theorem removeItem_removed (world : BeetsWorld) (item : Item)
    {delete : Bool} (hpath : delete = true → item.path ∈ paths) :
    Removed beets paths world (beets.removeItem world item delete).1 := by
  unfold Beets.removeItem
  cases delete with
  | false => exact Removed.dropItem world item.id
  | true =>
      simp only [if_true]
      split
      · rename_i tree hdelete
        exact (Removed.dropItem world item.id).trans
          (Removed.deleteFile (hpath rfl) hdelete)
      · exact Removed.dropItem world item.id

variable (beets) in
theorem removeItem_items (world : BeetsWorld) (item : Item) (delete : Bool) :
    (beets.removeItem world item delete).1.library =
      world.library.dropItem item.id := by
  unfold Beets.removeItem
  cases delete with
  | false => rfl
  | true =>
      simp only [if_true]
      split <;> rfl

variable (beets) in
theorem removeItems_removed {toDelete : List OsPath}
    (hpaths : ∀ path ∈ toDelete, path ∈ paths) (world : BeetsWorld)
    (items : List Item) :
    Removed beets paths world (removeItems beets toDelete world items).1 := by
  induction items generalizing world with
  | nil => exact Removed.refl world
  | cons item rest ih =>
      have hhead : Removed beets paths world
          (beets.removeItem world item (decide (item.path ∈ toDelete))).1 :=
        removeItem_removed world item fun hdelete =>
          hpaths _ (of_decide_eq_true hdelete)
      unfold removeItems
      split
      · rename_i next hitem
        rw [hitem] at hhead
        exact hhead.trans (ih next)
      · rename_i next failure hitem
        rw [hitem] at hhead
        exact hhead

variable (beets) in
/-- However the loop ends, it only takes rows of its items. -/
theorem removeItems_keeps (toDelete : List OsPath) (items : List Item)
    (world : BeetsWorld) :
    (∀ row ∈ world.library.items.rows, row.id ∉ items.map Item.id →
      row ∈ (removeItems beets toDelete world items).1.library.items.rows) ∧
    (removeItems beets toDelete world items).1.library.albums =
      world.library.albums := by
  induction items generalizing world with
  | nil => exact ⟨fun _ hrow _ => hrow, rfl⟩
  | cons item rest ih =>
      have hdrop := removeItem_items beets world item
        (decide (item.path ∈ toDelete))
      have hkeep : ∀ row ∈ world.library.items.rows,
          row.id ∉ (item :: rest).map Item.id →
          row ∈ (world.library.dropItem item.id).items.rows := by
        intro row hrow hother
        rw [List.map_cons, List.mem_cons, not_or] at hother
        exact KeyedTable.mem_delete.mpr ⟨hrow, hother.1⟩
      unfold removeItems
      split
      · rename_i next hitem
        rw [hitem] at hdrop
        obtain ⟨hrows, halbums⟩ := ih next
        refine ⟨fun row hrow hother => hrows row ?_ ?_, ?_⟩
        · rw [hdrop]
          exact hkeep row hrow hother
        · rw [List.map_cons, List.mem_cons, not_or] at hother
          exact hother.2
        · rw [halbums, hdrop]
          rfl
      · rename_i next failure hitem
        rw [hitem] at hdrop
        simp only at hdrop ⊢
        rw [hdrop]
        exact ⟨hkeep, rfl⟩

/-- When the loop ends well, the rows of all its items are gone. -/
theorem removeItems_takes {toDelete : List OsPath} {world after : BeetsWorld}
    {items : List Item}
    (hremove : removeItems beets toDelete world items = (after, .ok ())) :
    ∀ row ∈ after.library.items.rows, row.id ∉ items.map Item.id := by
  induction items generalizing world with
  | nil => exact fun _ _ => List.not_mem_nil
  | cons item rest ih =>
      intro row hrow
      unfold removeItems at hremove
      split at hremove
      · rename_i next hitem
        have hdrop := removeItem_items beets world item
          (decide (item.path ∈ toDelete))
        rw [hitem] at hdrop
        have hrest : Removed beets toDelete next
            (removeItems beets toDelete next rest).1 :=
          removeItems_removed beets (fun _ h => h) next rest
        rw [hremove] at hrest
        have hnext := hrest.items row hrow
        simp only at hdrop
        rw [hdrop, Library.dropItem, KeyedTable.mem_delete] at hnext
        rw [List.map_cons, List.mem_cons, not_or]
        exact ⟨hnext.2, ih hremove row hrow⟩
      · cases (Prod.mk.inj hremove).2

theorem removeAlbum_removed (world : BeetsWorld) (album : Album)
    {art : Option OsPath} (hart : ∀ path ∈ art, path ∈ paths) :
    Removed beets paths world (removeAlbum beets world album art).1 := by
  unfold removeAlbum
  cases art with
  | none => exact Removed.dropAlbum world album.id
  | some path =>
      simp only
      split
      · rename_i tree hdelete
        exact (Removed.dropAlbum world album.id).trans
          (Removed.deleteFile (hart path rfl) hdelete)
      · exact Removed.dropAlbum world album.id

variable (beets) in
theorem removeAlbum_library (world : BeetsWorld) (album : Album)
    (art : Option OsPath) :
    (removeAlbum beets world album art).1.library =
      world.library.dropAlbum album.id := by
  unfold removeAlbum
  cases art with
  | none => rfl
  | some path =>
      simp only
      split <;> rfl

variable (beets) in
theorem removePlanned_removed (world : BeetsWorld) (entry : Entry)
    (plan : DeletionPlan) :
    Removed beets plan.paths world
      (removePlanned beets world entry plan).1 := by
  have hitems : Removed beets plan.paths world
      (removeItems beets plan.toDelete world entry.items).1 :=
    removeItems_removed beets
      (fun _ h => DeletionPlan.mem_paths.mpr (Or.inl h)) world _
  unfold removePlanned
  split
  · rename_i next failure hloop
    rw [hloop] at hitems
    exact hitems
  · rename_i next hloop
    rw [hloop] at hitems
    split
    · exact hitems
    · rename_i album _
      refine hitems.trans (removeAlbum_removed next album fun path hart => ?_)
      exact DeletionPlan.mem_paths.mpr (Or.inr hart)

variable (beets) in
theorem removePlanned_items (world : BeetsWorld) (entry : Entry)
    (plan : DeletionPlan) :
    (removePlanned beets world entry plan).1.library.items =
      (removeItems beets plan.toDelete world entry.items).1.library.items := by
  unfold removePlanned
  split
  · rename_i next failure hloop
    rw [hloop]
  · rename_i next hloop
    rw [hloop]
    split
    · rfl
    · rw [removeAlbum_library]
      rfl

variable (beets) in
/-- The album's row is the only one a removal may take from its table. -/
theorem removePlanned_albums (world : BeetsWorld) (entry : Entry)
    (plan : DeletionPlan) :
    (removePlanned beets world entry plan).1.library.albums =
        world.library.albums ∨
      ∃ album, entry.album = some album ∧
        (removePlanned beets world entry plan).1.library.albums =
          world.library.albums.delete album.id := by
  have halbums := (removeItems_keeps beets plan.toDelete entry.items world).2
  unfold removePlanned
  split
  · rename_i next failure hloop
    rw [hloop] at halbums
    exact Or.inl halbums
  · rename_i next hloop
    rw [hloop] at halbums
    split
    · exact Or.inl halbums
    · rename_i album halbum
      refine Or.inr ⟨album, halbum, ?_⟩
      rw [removeAlbum_library, ← halbums]
      rfl

/-- When a removal ends well, so did its loop over the items, and the album's
row is gone. -/
theorem removePlanned_eq_ok {world after : BeetsWorld} {entry : Entry}
    {plan : DeletionPlan}
    (hremove : removePlanned beets world entry plan = (after, .ok ())) :
    (∃ middle, removeItems beets plan.toDelete world entry.items =
        (middle, .ok ())) ∧
      ∀ album, entry.album = some album →
        after.library.albums = world.library.albums.delete album.id := by
  have halbums := (removeItems_keeps beets plan.toDelete entry.items world).2
  unfold removePlanned at hremove
  split at hremove
  · cases (Prod.mk.inj hremove).2
  · rename_i next hloop
    rw [hloop] at halbums
    refine ⟨⟨next, hloop⟩, fun album halbum => ?_⟩
    rw [halbum] at hremove
    have hlibrary := removeAlbum_library beets next album plan.art
    simp only at hremove halbums
    rw [hremove] at hlibrary
    simp only at hlibrary
    rw [hlibrary, ← halbums]
    rfl

theorem removeEntry_world {world : BeetsWorld} {target : CleanSlateTarget}
    {sourcePath : OsPath} {entry : Entry}
    (hentry : loadEntry beets world.library target = some entry) :
    (removeEntry beets world target sourcePath).1 =
      (removePlanned beets world entry
        (planOf beets world target sourcePath)).1 := by
  simp only [removeEntry, planOf, hentry]
  split <;> rename_i hplanned <;> rw [hplanned]

variable (beets) in
/-- Whatever becomes of it, a removal follows its plan. -/
theorem removeEntry_removed (world : BeetsWorld) (target : CleanSlateTarget)
    (sourcePath : OsPath) :
    Removed beets (planOf beets world target sourcePath).paths world
      (removeEntry beets world target sourcePath).1 := by
  cases hentry : loadEntry beets world.library target with
  | none =>
      rw [removeEntry, hentry]
      exact Removed.refl world
  | some entry =>
      rw [removeEntry_world hentry]
      exact removePlanned_removed beets world entry _

theorem removeEntry_eq_ok {world after : BeetsWorld}
    {target : CleanSlateTarget} {sourcePath : OsPath} {removed : RemovedEntry}
    (hremove : removeEntry beets world target sourcePath =
      (after, .ok removed)) :
    ∃ entry, loadEntry beets world.library target = some entry ∧
      removePlanned beets world entry (planOf beets world target sourcePath) =
        (after, .ok ()) := by
  unfold removeEntry at hremove
  unfold planOf
  cases hentry : loadEntry beets world.library target with
  | none =>
      rw [hentry] at hremove
      cases (Prod.mk.inj hremove).2
  | some entry =>
      refine ⟨entry, rfl, ?_⟩
      rw [hentry] at hremove
      simp only at hremove ⊢
      split at hremove
      · cases (Prod.mk.inj hremove).2
      · rename_i next hplanned
        rw [hplanned, (Prod.mk.inj hremove).1]

variable (beets) in
/-- Whatever becomes of it, a removal takes no row that is not the
target's. -/
theorem removeEntry_keeps (world : BeetsWorld) (target : CleanSlateTarget)
    (sourcePath : OsPath) :
    (∀ row ∈ world.library.items.rows, target.ownsItem row = false →
      row ∈ (removeEntry beets world target
        sourcePath).1.library.items.rows) ∧
    (∀ row ∈ world.library.albums.rows, target.ownsAlbum row = false →
      row ∈ (removeEntry beets world target
        sourcePath).1.library.albums.rows) := by
  cases hentry : loadEntry beets world.library target with
  | none =>
      rw [removeEntry, hentry]
      exact ⟨fun _ hrow _ => hrow, fun _ hrow _ => hrow⟩
  | some entry =>
      rw [removeEntry_world hentry]
      constructor
      · intro row hrow hown
        rw [removePlanned_items]
        exact (removeItems_keeps beets _ entry.items world).1 row hrow
          ((id_not_mem_of_loadEntry hentry hrow).mpr hown)
      · intro row hrow hown
        rcases removePlanned_albums beets world entry
          (planOf beets world target sourcePath) with
          hsame | ⟨album, halbum, hgone⟩
        · rw [hsame]
          exact hrow
        · obtain ⟨hmem, halbumOwn⟩ :=
            (album_eq_some_of_loadEntry hentry album).mp halbum
          rw [hgone]
          refine KeyedTable.mem_delete.mpr ⟨hrow, fun hid => ?_⟩
          rw [KeyedTable.eq_of_key hrow hmem hid, halbumOwn] at hown
          cases hown

/-- The rows a successful removal leaves are those that are not the
target's. -/
theorem removeEntry_rows {world after : BeetsWorld}
    {target : CleanSlateTarget} {sourcePath : OsPath} {removed : RemovedEntry}
    (hremove : removeEntry beets world target sourcePath =
      (after, .ok removed)) :
    (∀ row, row ∈ after.library.items.rows ↔
      row ∈ world.library.items.rows ∧ target.ownsItem row = false) ∧
    (∀ row, row ∈ after.library.albums.rows ↔
      row ∈ world.library.albums.rows ∧ target.ownsAlbum row = false) := by
  obtain ⟨entry, hentry, hplanned⟩ := removeEntry_eq_ok hremove
  have hremoved := removeEntry_removed beets world target sourcePath
  obtain ⟨hitems, halbums⟩ := removeEntry_keeps beets world target sourcePath
  rw [hremove] at hremoved hitems halbums
  obtain ⟨⟨middle, hloop⟩, halbum⟩ := removePlanned_eq_ok hplanned
  have hsame := removePlanned_items beets world entry
    (planOf beets world target sourcePath)
  rw [hplanned, hloop] at hsame
  simp only at hsame
  refine ⟨fun row => ⟨fun hrow => ?_, fun h => hitems row h.1 h.2⟩,
    fun row => ⟨fun hrow => ?_, fun h => halbums row h.1 h.2⟩⟩
  · have hbefore := hremoved.items row hrow
    rw [hsame] at hrow
    exact ⟨hbefore, (id_not_mem_of_loadEntry hentry hbefore).mp
      (removeItems_takes hloop row hrow)⟩
  · refine ⟨hremoved.albums row hrow, ?_⟩
    by_contra hown
    rw [Bool.not_eq_false] at hown
    have hfound := (album_eq_some_of_loadEntry hentry row).mpr
      ⟨hremoved.albums row hrow, hown⟩
    rw [halbum row hfound, KeyedTable.mem_delete] at hrow
    exact hrow.2 rfl

end Removal

/-- In the course of a removal the path was deleted, and nothing came back
afterwards. -/
def Attempted (beets : Beets) (paths : List OsPath) (path : OsPath)
    (before after : BeetsWorld) : Prop :=
  ∃ current next,
    Wiped paths before.library.directory beets.isClutter before.tree current ∧
      beets.deleteFile before.library.directory current path = .ok next ∧
      Shrinks after.tree next

namespace Attempted

variable {beets : Beets} {paths : List OsPath} {path : OsPath}

theorem after_removal {before middle after : BeetsWorld}
    (hremoved : Removed beets paths before middle)
    (hattempt : Attempted beets paths path middle after) :
    Attempted beets paths path before after := by
  obtain ⟨current, next, hwiped, hdelete, hshrinks⟩ := hattempt
  rw [hremoved.directory] at hwiped hdelete
  exact ⟨current, next, hremoved.tree.trans hwiped, hdelete, hshrinks⟩

theorem before_removal {before middle after : BeetsWorld}
    (hattempt : Attempted beets paths path before middle)
    (hremoved : Removed beets paths middle after) :
    Attempted beets paths path before after := by
  obtain ⟨current, next, hwiped, hdelete, hshrinks⟩ := hattempt
  exact ⟨current, next, hwiped, hdelete,
    hremoved.tree.shrinks.trans hshrinks⟩

theorem of_removeItem {world after : BeetsWorld} {item : Item}
    (hremove : beets.removeItem world item true = (after, .ok ())) :
    Attempted beets paths item.path world after := by
  simp only [Beets.removeItem, if_true] at hremove
  split at hremove
  · rename_i tree hdelete
    obtain rfl := (Prod.mk.inj hremove).1
    exact ⟨world.tree, tree, Reduced.refl _, hdelete, Shrinks.refl _⟩
  · cases (Prod.mk.inj hremove).2

theorem of_removeAlbum {world after : BeetsWorld} {album : Album}
    (hremove : removeAlbum beets world album (some path) = (after, .ok ())) :
    Attempted beets paths path world after := by
  simp only [removeAlbum] at hremove
  split at hremove
  · rename_i tree hdelete
    obtain rfl := (Prod.mk.inj hremove).1
    exact ⟨world.tree, tree, Reduced.refl _, hdelete, Shrinks.refl _⟩
  · cases (Prod.mk.inj hremove).2

theorem of_removeItems {toDelete : List OsPath}
    (hpaths : ∀ path ∈ toDelete, path ∈ paths) {world after : BeetsWorld}
    {items : List Item} {item : Item} (hitem : item ∈ items)
    (hdelete : item.path ∈ toDelete)
    (hremove : removeItems beets toDelete world items = (after, .ok ())) :
    Attempted beets paths item.path world after := by
  induction items generalizing world with
  | nil => cases hitem
  | cons head rest ih =>
      have hhead : Removed beets paths world
          (beets.removeItem world head (decide (head.path ∈ toDelete))).1 :=
        removeItem_removed world head fun hdelete =>
          hpaths _ (of_decide_eq_true hdelete)
      unfold removeItems at hremove
      split at hremove
      · rename_i next hstep
        rw [hstep] at hhead
        rcases List.mem_cons.mp hitem with rfl | hrest
        · rw [decide_eq_true hdelete] at hstep
          have hloop := removeItems_removed beets hpaths next rest
          rw [hremove] at hloop
          exact (of_removeItem hstep).before_removal hloop
        · exact (ih hrest hremove).after_removal hhead
      · cases (Prod.mk.inj hremove).2

theorem of_removePlanned {world after : BeetsWorld} {entry : Entry}
    {source : Location String}
    (hpath : path ∈ (deletionPlan world.library world.tree entry source).paths)
    (hremove : removePlanned beets world entry
      (deletionPlan world.library world.tree entry source) =
        (after, .ok ())) :
    Attempted beets (deletionPlan world.library world.tree entry source).paths
      path world after := by
  generalize hplan : deletionPlan world.library world.tree entry source = plan
    at hpath hremove ⊢
  have hsub : ∀ path ∈ plan.toDelete, path ∈ plan.paths :=
    fun _ h => DeletionPlan.mem_paths.mpr (Or.inl h)
  unfold removePlanned at hremove
  split at hremove
  · cases (Prod.mk.inj hremove).2
  · rename_i middle hloop
    have hitems := removeItems_removed beets hsub world entry.items
    rw [hloop] at hitems
    rcases DeletionPlan.mem_paths.mp hpath with hfile | hart
    · have hfound := hfile
      rw [← hplan, mem_toDelete_iff] at hfound
      obtain ⟨⟨item, hitem, rfl⟩, _⟩ := hfound
      have hattempt := of_removeItems hsub hitem hfile hloop
      split at hremove
      · obtain rfl := (Prod.mk.inj hremove).1
        exact hattempt
      · rename_i album _
        have halbum : Removed beets plan.paths middle
            (removeAlbum beets middle album plan.art).1 :=
          removeAlbum_removed middle album fun other hother =>
            DeletionPlan.mem_paths.mpr (Or.inr hother)
        rw [hremove] at halbum
        exact hattempt.before_removal halbum
    · rw [Option.mem_def] at hart
      have hfound := hart
      rw [← hplan, art_eq_some_iff, Option.bind_eq_some_iff] at hfound
      obtain ⟨⟨album, halbum, _⟩, _⟩ := hfound
      rw [halbum, hart] at hremove
      exact (of_removeAlbum hremove).after_removal hitems

/-- A successful removal deleted every path of its plan. -/
theorem of_removeEntry {world after : BeetsWorld} {target : CleanSlateTarget}
    {sourcePath : OsPath} {removed : RemovedEntry}
    (hpath : path ∈ (planOf beets world target sourcePath).paths)
    (hremove : removeEntry beets world target sourcePath =
      (after, .ok removed)) :
    Attempted beets (planOf beets world target sourcePath).paths path world
      after := by
  obtain ⟨entry, hentry, hplanned⟩ := removeEntry_eq_ok hremove
  rw [planOf, hentry] at hpath hplanned ⊢
  exact of_removePlanned hpath hplanned

end Attempted

section Outcome

variable {beets : Beets} {paths : List OsPath} {path : OsPath}

/-- Where there are no links, a path that was deleted leads nowhere. -/
theorem Attempted.gone_of_links_nil {before after : BeetsWorld}
    (hlinks : before.tree.links = [])
    (hattempt : Attempted beets paths path before after) :
    after.tree.pathExists path = false := by
  obtain ⟨current, next, hwiped, hdelete, hafter⟩ := hattempt
  obtain ⟨left, hremove, rfl⟩ := deleteFile_eq_ok_iff.mp hdelete
  have hnext := hafter.trans (beets.pruneDirs_pruned left path.dropLast
    before.library.directory beets.clutter).shrinks
  by_contra hexists
  rw [Bool.not_eq_false, pathExists, Option.isSome_iff_exists] at hexists
  obtain ⟨location, hresolve⟩ := hexists
  have hleft := hnext.resolve? hresolve
  rcases removeFile_eq_ok_iff.mp hremove with
    ⟨_, _, hremoved⟩ | ⟨hgone, rfl⟩
  · obtain ⟨entry, hentry, _, rfl⟩ := remove?_eq_some_iff.mp hremoved
    have hcurrent : current.links = [] :=
      List.eq_nil_iff_forall_not_mem.mpr fun link hlink => by
        have hlink := hwiped.shrinks.links link hlink
        rw [hlinks] at hlink
        cases hlink
    have hplace : location = entry := by
      rw [entryAt_of_links_nil hcurrent hentry]
      exact resolve?_of_links_nil hcurrent
        ((current.restrict_shrinks _).resolve? hleft)
    have hthere : (current.erase entry).occupied location = true :=
      occupied_iff.mpr ((exists_of_resolve? hleft).imp_right fun hdir =>
        Or.inl (isDir_iff.mp hdir))
    rcases occupied_restrict.mp hthere with hroot | ⟨_, hkeep⟩
    · obtain ⟨rest, n, rfl⟩ := entryAt_eq_some hentry
      obtain ⟨parent, _, _, rfl⟩ := entryAt_concat.mp hentry
      rw [hroot] at hplace
      simp at hplace
    · simp [hplace] at hkeep
  · rw [pathExists, hleft] at hgone
    cases hgone

/-- What the guard goes on with: the worker has a downloads folder, the job
one path and one target, and the preview of that target is `ok`. -/
structure Cleared (beets : Beets) (settings : CleanSlateSettings)
    (job : ImportJob) (world : BeetsWorld) (target : CleanSlateTarget)
    (path : OsPath) (plan : CleanSlatePreview) : Prop where
  onePath : job.paths = [path]
  oneTarget : CleanSlateTarget.fromIds job.cleanSlateAlbumId
    job.cleanSlateItemId = .ok target
  previewed : ∃ downloadsPath, settings.downloadsPath = some downloadsPath ∧
    preview beets world target path downloadsPath
      job.cleanSlateAllowFewerFiles settings.preserveFields = .ok plan
  ok : plan.ok = true

variable {settings : CleanSlateSettings} {job : ImportJob}
  {world : BeetsWorld} {target : CleanSlateTarget} {plan : CleanSlatePreview}

theorem cleanSlateGuard_eq_ok_iff :
    cleanSlateGuard beets settings job world = .ok (target, path, plan) ↔
      Cleared beets settings job world target path plan := by
  unfold cleanSlateGuard
  constructor
  · intro hguard
    split at hguard
    · cases hguard
    · rename_i downloadsPath hdownloads
      split at hguard
      · rename_i only honly
        split at hguard
        · cases hguard
        · rename_i found htarget
          split at hguard
          · cases hguard
          · rename_i previewed hpreview
            cases hchecked : requireOk previewed with
            | error failure =>
                rw [hchecked] at hguard
                cases hguard
            | ok checked =>
                rw [hchecked] at hguard
                cases hguard
                exact ⟨honly, htarget, ⟨downloadsPath, hdownloads, hpreview⟩,
                  requireOk_eq_ok_iff.mp hchecked⟩
      · cases hguard
  · rintro ⟨honly, htarget, ⟨downloadsPath, hdownloads, hpreview⟩, hok⟩
    have hchecked : requireOk plan = .ok () := requireOk_eq_ok_iff.mpr hok
    simp only [hdownloads, honly, htarget, hpreview, hchecked, Except.map]

/-- A clean slate that is not cleared raises and leaves everything alone. -/
theorem cleanSlateBlocking_of_not_cleared
    (hnot : ∀ target path plan,
      ¬ Cleared beets settings job world target path plan) :
    ∃ failure, cleanSlateBlocking beets settings job world =
      (world, .error failure) := by
  unfold cleanSlateBlocking
  cases hguard : cleanSlateGuard beets settings job world with
  | error failure => exact ⟨failure, rfl⟩
  | ok cleared =>
      exact absurd (cleanSlateGuard_eq_ok_iff.mp hguard) (hnot _ _ _)

variable (beets settings job world) in
theorem cleared_or_refused :
    (∃ target path plan,
      Cleared beets settings job world target path plan) ∨
    ∃ failure, cleanSlateBlocking beets settings job world =
      (world, .error failure) := by
  by_cases hcleared : ∃ target path plan,
      Cleared beets settings job world target path plan
  · exact Or.inl hcleared
  · exact Or.inr (cleanSlateBlocking_of_not_cleared
      fun target path plan h => hcleared ⟨target, path, plan, h⟩)

/-- A cleared clean slate is the removal of its entry. -/
theorem cleanSlateBlocking_of_cleared
    (hcleared : Cleared beets settings job world target path plan) :
    (cleanSlateBlocking beets settings job world).1 =
        (removeEntry beets world target path).1 ∧
      (cleanSlateBlocking beets settings job world).2 =
        (removeEntry beets world target path).2.map fun removed =>
          (removed, plan.fieldsPreserved) := by
  simp only [cleanSlateBlocking, cleanSlateGuard_eq_ok_iff.mpr hcleared]
  split <;> rename_i hremove <;> rw [hremove] <;> exact ⟨rfl, rfl⟩

theorem Cleared.entry
    (hcleared : Cleared beets settings job world target path plan) :
    ∃ entry downloadsPath,
      loadEntry beets world.library target = some entry ∧
      plan = previewEntry beets world target entry path downloadsPath
        job.cleanSlateAllowFewerFiles settings.preserveFields := by
  obtain ⟨downloadsPath, _, hpreview⟩ := hcleared.previewed
  obtain ⟨entry, hentry, hplan⟩ := preview_eq_ok_iff.mp hpreview
  exact ⟨entry, downloadsPath, hentry, hplan.symm⟩

variable (beets) in
/-- The loop over the items takes the first item's row, whatever happens
then. -/
theorem removeItems_first (toDelete : List OsPath) (world : BeetsWorld)
    (item : Item) (rest : List Item) :
    item ∉ (removeItems beets toDelete world
      (item :: rest)).1.library.items.rows := by
  have hfirst : item ∉ (beets.removeItem world item
      (decide (item.path ∈ toDelete))).1.library.items.rows := by
    rw [removeItem_items, Library.dropItem, KeyedTable.mem_delete]
    exact fun hmem => hmem.2 rfl
  unfold removeItems
  split
  · rename_i next hitem
    rw [hitem] at hfirst
    intro hmem
    have hrest : Removed beets toDelete next
        (removeItems beets toDelete next rest).1 :=
      removeItems_removed beets (fun _ h => h) next rest
    exact hfirst (hrest.items item hmem)
  · rename_i next failure hitem
    rw [hitem] at hfirst
    exact hfirst

/-- A removal that finds its entry takes a row of it, even if it fails
afterwards. -/
theorem removeEntry_takes_row {entry : Entry}
    (hentry : loadEntry beets world.library target = some entry) :
    (∃ row ∈ world.library.items.rows,
      row ∉ (removeEntry beets world target path).1.library.items.rows) ∨
    (∃ row ∈ world.library.albums.rows,
      row ∉ (removeEntry beets world target path).1.library.albums.rows) := by
  rw [removeEntry_world hentry, removePlanned_items]
  cases hitems : entry.items with
  | cons item rest =>
      have hmem : item ∈ entry.items := by
        rw [hitems]
        exact List.mem_cons_self
      exact Or.inl ⟨item, ((mem_items_of_loadEntry hentry item).mp hmem).1,
        removeItems_first beets _ world item rest⟩
  | nil =>
      obtain ⟨album, halbum⟩ := album_of_no_items hentry hitems
      have hrow := ((album_eq_some_of_loadEntry hentry album).mp halbum).1
      refine Or.inr ⟨album, hrow, fun hmem => ?_⟩
      simp only [removePlanned, hitems, removeItems, halbum,
        removeAlbum_library, Library.dropAlbum, KeyedTable.mem_delete] at hmem
      exact hmem.2 rfl

end Outcome

section Succeeds

variable {beets : Beets} {before : FileTree String}

/-- A path in normal form that leads to a file, which the operating system
lets go. -/
structure Removable (beets : Beets) (before : FileTree String)
    (path : OsPath) : Prop where
  normal : spell (normpath path) = path
  regular : ∃ file ∈ before.files, before.resolve? path = some file
  permitted : ∀ tree, beets.refuses tree path = none

/-- After removals such a path leads to its file or nowhere. -/
theorem deleteFile_succeeds {tree : FileTree String}
    (hshrinks : Shrinks tree before) {path : OsPath}
    (hremovable : Removable beets before path) (root : Location String) :
    ∃ next, beets.deleteFile root tree path = .ok next ∧
      Shrinks next before := by
  have hprune := fun left : FileTree String =>
    (beets.pruneDirs_pruned left path.dropLast root beets.clutter).shrinks
  cases hexists : tree.pathExists path with
  | false =>
      exact ⟨_, deleteFile_eq_ok_iff.mpr ⟨tree,
        removeFile_eq_ok_iff.mpr (Or.inr ⟨hexists, rfl⟩), rfl⟩,
        (hprune tree).trans hshrinks⟩
  | true =>
      obtain ⟨file, hfile, hbefore⟩ := hremovable.regular
      obtain ⟨place, hresolve⟩ := Option.isSome_iff_exists.mp hexists
      have hplace := hshrinks.resolve? hresolve
      rw [hbefore] at hplace
      obtain rfl := Option.some.inj hplace
      have hleft : file ∈ tree.files :=
        hshrinks.file_of_occupied hfile (occupied_iff.mpr
          ((exists_of_resolve? hresolve).imp_right fun hdir =>
            Or.inl (isDir_iff.mp hdir)))
      rw [← hremovable.normal] at hresolve
      obtain ⟨left, hremove⟩ := exists_remove?_of_file hresolve hleft
      rw [hremovable.normal] at hremove
      obtain ⟨entry, _, _, herase⟩ := remove?_eq_some_iff.mp hremove
      refine ⟨_, deleteFile_eq_ok_iff.mpr ⟨left, removeFile_eq_ok_iff.mpr
        (Or.inl ⟨hexists, hremovable.permitted tree, hremove⟩), rfl⟩, ?_⟩
      rw [← herase]
      exact (hprune _).trans ((tree.restrict_shrinks _).trans hshrinks)

theorem removeItem_succeeds {world : BeetsWorld}
    (hshrinks : Shrinks world.tree before) (item : Item) {delete : Bool}
    (hremovable : delete = true → Removable beets before item.path) :
    ∃ next, beets.removeItem world item delete = (next, .ok ()) ∧
      Shrinks next.tree before := by
  cases delete with
  | false => exact ⟨_, rfl, hshrinks⟩
  | true =>
      obtain ⟨next, hdelete, hnext⟩ := deleteFile_succeeds hshrinks
        (hremovable rfl) world.library.directory
      refine ⟨{ world with
        library := world.library.dropItem item.id, tree := next }, ?_, hnext⟩
      simp only [Beets.removeItem, if_true, Library.dropItem, hdelete]

theorem removeItems_succeeds {toDelete : List OsPath}
    (hremovable : ∀ path ∈ toDelete, Removable beets before path)
    {world : BeetsWorld} (hshrinks : Shrinks world.tree before)
    (items : List Item) :
    ∃ next, removeItems beets toDelete world items = (next, .ok ()) ∧
      Shrinks next.tree before := by
  induction items generalizing world with
  | nil => exact ⟨world, rfl, hshrinks⟩
  | cons item rest ih =>
      have hhead : decide (item.path ∈ toDelete) = true →
          Removable beets before item.path :=
        fun hdelete => hremovable _ (of_decide_eq_true hdelete)
      obtain ⟨next, hitem, hnext⟩ := removeItem_succeeds hshrinks item hhead
      simp only [removeItems, hitem]
      exact ih hnext

theorem removePlanned_succeeds {plan : DeletionPlan} {world : BeetsWorld}
    (hremovable : ∀ path ∈ plan.paths, Removable beets world.tree path)
    (entry : Entry) :
    ∃ next, removePlanned beets world entry plan = (next, .ok ()) := by
  obtain ⟨middle, hloop, hmiddle⟩ := removeItems_succeeds
    (fun path hpath => hremovable path (DeletionPlan.mem_paths.mpr
      (Or.inl hpath)))
    (Shrinks.refl world.tree) entry.items
  simp only [removePlanned, hloop]
  cases entry.album with
  | none => exact ⟨middle, rfl⟩
  | some album =>
      cases hart : plan.art with
      | none => exact ⟨_, rfl⟩
      | some path =>
          obtain ⟨next, hdelete, _⟩ := deleteFile_succeeds hmiddle
            (hremovable path (DeletionPlan.mem_paths.mpr (Or.inr hart)))
            middle.library.directory
          refine ⟨{ middle with
            library := middle.library.dropAlbum album.id, tree := next }, ?_⟩
          simp only [removeAlbum, Library.dropAlbum, hdelete]

/-- A removal whose planned paths can all be removed succeeds. -/
theorem removeEntry_succeeds {world : BeetsWorld} {target : CleanSlateTarget}
    {sourcePath : OsPath} {entry : Entry}
    (hentry : loadEntry beets world.library target = some entry)
    (hremovable : ∀ path ∈ (planOf beets world target sourcePath).paths,
      Removable beets world.tree path) :
    ∃ after removed, removeEntry beets world target sourcePath =
      (after, .ok removed) := by
  obtain ⟨after, hplanned⟩ := removePlanned_succeeds hremovable entry
  rw [planOf, hentry] at hplanned
  simp only [removeEntry, hentry, hplanned]
  exact ⟨after, _, rfl⟩

end Succeeds

end Beetkeeper
