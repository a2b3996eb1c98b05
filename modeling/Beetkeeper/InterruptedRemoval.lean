/-
A removal that an exception may interrupt anywhere: its steps one by one, the
states it passes through, and which rows and files these still have.
-/
import Beetkeeper.InterruptibleProgram
import Beetkeeper.CleanSlateContract

namespace Beetkeeper

open LexicalPath FileTree

/-- The steps of `remove_entry` in beets' order: a row goes, its event is sent
to the listeners, then the file goes and then the folders that hold nothing
but clutter without it. -/
inductive RemovalStep where
  | dropItem (item : Item)
  | dropAlbum (album : Album)
  | send (event : String)
  | removeFile (path : OsPath)
  | pruneDirs (path : OsPath)
deriving Repr, DecidableEq

/-- What a step does when nothing goes wrong around it. -/
def RemovalStep.run (beets : Beets) (world : BeetsWorld) :
    RemovalStep → Except FilesystemError BeetsWorld
  | .dropItem item =>
      .ok { world with library := world.library.dropItem item.id }
  | .dropAlbum album =>
      .ok { world with library := world.library.dropAlbum album.id }
  | .send _ => .ok world
  | .removeFile path =>
      (beets.removeFile world.tree path).map fun tree =>
        { world with tree := tree }
  | .pruneDirs path =>
      .ok { world with
        tree := beets.pruneDirs world.tree path.dropLast
          world.library.directory beets.clutter }

/-- What an exception may leave of a step: nothing, all of it, or some of the
folders pruned. -/
inductive RemovalStep.Leaves (beets : Beets) :
    RemovalStep → BeetsWorld → BeetsWorld → Prop
  | nothing (step : RemovalStep) (world : BeetsWorld) :
      Leaves beets step world world
  | done {step : RemovalStep} {world after : BeetsWorld}
      (hrun : step.run beets world = .ok after) :
      Leaves beets step world after
  | partly {path : OsPath} {world : BeetsWorld} {tree : FileTree String}
      (hpruned : Pruned world.library.directory path.dropLast beets.isClutter
        world.tree tree) :
      Leaves beets (.pruneDirs path) world { world with tree := tree }

/-- The removal as a program that may be interrupted. -/
def removalMachine (beets : Beets) : Interruptible RemovalStep BeetsWorld where
  completes step before after := step.run beets before = .ok after
  leaves := RemovalStep.Leaves beets

/-- A file goes, and then the folders around it. -/
def deleteSteps (path : OsPath) : List RemovalStep :=
  [.removeFile path, .pruneDirs path]

/-- `item.remove(delete, with_album=False)`. -/
def itemSteps (toDelete : List OsPath) (item : Item) : List RemovalStep :=
  .dropItem item :: .send "item_removed" ::
    if toDelete.contains item.path then deleteSteps item.path else []

/-- `album.remove(delete=False, with_items=False)`, and then the art. -/
def albumSteps (album : Album) (art : Option OsPath) : List RemovalStep :=
  .dropAlbum album :: .send "album_removed" ::
    match art with
    | none => []
    | some path => deleteSteps path

/-- The steps of `remove_entry` for an entry and its plan. -/
def removalSteps (entry : Entry) (plan : DeletionPlan) : List RemovalStep :=
  entry.items.flatMap (itemSteps plan.toDelete) ++
    match entry.album with
    | none => []
    | some album => albumSteps album plan.art

/-- The states `remove_entry` may be in while it runs, when it has returned,
and when an exception has left it. -/
def RemovalPasses (beets : Beets) (target : CleanSlateTarget)
    (sourcePath : OsPath) (before now : BeetsWorld) : Prop :=
  match loadEntry beets before.library target with
  | none => now = before
  | some entry => (removalMachine beets).Passes
      (removalSteps entry (planOf beets before target sourcePath))
      before now

/-- The file was there before and is not any more. -/
def FileDeleted (before now : BeetsWorld) (location : Location String) :
    Prop :=
  location ∈ before.tree.files ∧ location ∉ now.tree.files

instance (before now : BeetsWorld) (location : Location String) :
    Decidable (FileDeleted before now location) :=
  inferInstanceAs (Decidable (_ ∧ _))

/-- What a state of the removal owes the library: no row that is left points
at a deleted file, and every deleted file of a row was the target's. -/
structure SoundState (target : CleanSlateTarget) (before now : BeetsWorld) :
    Prop where
  rows : ∀ row ∈ now.library.items.rows, ∀ location,
    before.tree.resolve? row.path = some location →
    ¬ FileDeleted before now location
  files : ∀ row ∈ before.library.items.rows, ∀ location,
    before.tree.resolve? row.path = some location →
    FileDeleted before now location → target.ownsItem row = true

section Function

variable {beets : Beets}

theorem completes_deleteSteps {world : BeetsWorld} {path : OsPath}
    {tree : FileTree String}
    (hdelete : beets.deleteFile world.library.directory world.tree path =
      .ok tree) :
    (removalMachine beets).Completes (deleteSteps path) world
      { world with tree := tree } := by
  obtain ⟨left, hremove, rfl⟩ := deleteFile_eq_ok_iff.mp hdelete
  have hfile : RemovalStep.run beets world (.removeFile path) =
      .ok { world with tree := left } := by
    rw [RemovalStep.run, hremove]
    rfl
  exact .cons hfile (.cons rfl (.nil _))

/-- The loop's step over an item completes the item's program, or fails where
an exception may leave it. -/
theorem removeItem_passes (toDelete : List OsPath) (world : BeetsWorld)
    (item : Item) :
    match beets.removeItem world item (decide (item.path ∈ toDelete)) with
    | (after, .ok ()) => (removalMachine beets).Completes
        (itemSteps toDelete item) world after
    | (after, .error _) => (removalMachine beets).Passes
        (itemSteps toDelete item) world after := by
  by_cases hplanned : item.path ∈ toDelete
  · simp only [Beets.removeItem, itemSteps, List.contains_eq_mem, hplanned,
      decide_true, if_true]
    cases hdelete : beets.deleteFile
        (world.library.dropItem item.id).directory world.tree item.path with
    | ok tree =>
        have hfile := @completes_deleteSteps beets
          { world with library := world.library.dropItem item.id } _ _ hdelete
        exact .cons rfl (.cons rfl hfile)
    | error failure => exact .next rfl (.here _ _)
  · simp only [Beets.removeItem, itemSteps, List.contains_eq_mem, hplanned,
      decide_false]
    exact .cons rfl (.cons rfl (.nil _))

theorem removeItems_passes (toDelete : List OsPath) (world : BeetsWorld)
    (items : List Item) :
    match removeItems beets toDelete world items with
    | (after, .ok ()) => (removalMachine beets).Completes
        (items.flatMap (itemSteps toDelete)) world after
    | (after, .error _) => (removalMachine beets).Passes
        (items.flatMap (itemSteps toDelete)) world after := by
  induction items generalizing world with
  | nil => exact .nil world
  | cons item rest ih =>
      have hhead := @removeItem_passes beets toDelete world item
      rw [removeItems, List.flatMap_cons]
      cases hitem : beets.removeItem world item
          (decide (item.path ∈ toDelete)) with
      | mk next result =>
          rw [hitem] at hhead
          cases result with
          | error failure =>
              exact Interruptible.passes_append_iff.mpr (Or.inl hhead)
          | ok done =>
              have hrest := ih next
              simp only at hhead ⊢
              revert hrest
              cases removeItems beets toDelete next rest with
              | mk after result =>
                  cases result with
                  | error failure =>
                      intro hrest
                      exact Interruptible.passes_append_iff.mpr
                        (Or.inr ⟨next, hhead, hrest⟩)
                  | ok done =>
                      intro hrest
                      exact hhead.append hrest

theorem removeAlbum_passes (world : BeetsWorld) (album : Album)
    (art : Option OsPath) :
    (removalMachine beets).Passes (albumSteps album art) world
      (removeAlbum beets world album art).1 := by
  cases art with
  | none => exact .next rfl (.here _ _)
  | some path =>
      simp only [removeAlbum, albumSteps]
      cases hdelete : beets.deleteFile
          (world.library.dropAlbum album.id).directory world.tree path with
      | error failure => exact .next rfl (.here _ _)
      | ok tree =>
          have hfile := @completes_deleteSteps beets
            { world with library := world.library.dropAlbum album.id } _ _
            hdelete
          exact .next rfl (.next rfl hfile.passes)

variable (beets) in
/-- What `remove_entry` leaves, returning or raising by itself, is one of the
states. -/
theorem removeEntry_passes (world : BeetsWorld) (target : CleanSlateTarget)
    (sourcePath : OsPath) :
    RemovalPasses beets target sourcePath world
      (removeEntry beets world target sourcePath).1 := by
  unfold RemovalPasses
  cases hentry : loadEntry beets world.library target with
  | none =>
      rw [removeEntry, hentry]
  | some entry =>
      rw [removeEntry_world hentry]
      generalize planOf beets world target sourcePath = plan
      have hitems := @removeItems_passes beets plan.toDelete world entry.items
      simp only [removePlanned, removalSteps]
      cases hloop : removeItems beets plan.toDelete world entry.items with
      | mk next result =>
          rw [hloop] at hitems
          cases result with
          | error failure =>
              exact Interruptible.passes_append_iff.mpr (Or.inl hitems)
          | ok done =>
              refine Interruptible.passes_append_iff.mpr
                (Or.inr ⟨next, hitems, ?_⟩)
              cases entry.album with
              | none => exact .here _ _
              | some album => exact removeAlbum_passes next album plan.art

end Function

/-- Deleting the paths has no reason to take the file of a row. -/
def Spares (beets : Beets) (world : BeetsWorld) (paths : List OsPath)
    (row : Item) : Prop :=
  ∀ location ∈ world.tree.files,
    world.tree.resolve? row.path = some location →
    ¬ Doomed paths (paths.map List.dropLast) world.library.directory
      beets.isClutter world.tree location

/-- The plan takes no row's file but by the row's own path: it spares the
rows outside the entry, and each row of the entry is spared by the paths of
the others. -/
structure Unshared (beets : Beets) (world : BeetsWorld)
    (target : CleanSlateTarget) (sourcePath : OsPath) : Prop where
  entry : ∀ row ∈ world.library.items.rows, target.ownsItem row = true →
    Spares beets world
      ((planOf beets world target sourcePath).toDelete.filter fun path =>
        decide (path ≠ row.path)) row
  others : ∀ row ∈ world.library.items.rows, target.ownsItem row = false →
    Spares beets world (planOf beets world target sourcePath).paths row

/-- The invariant of a removal that has deleted the paths `done`: entries only
go for them, and a row of the entry that is left has a path of its own. -/
structure Kept (beets : Beets) (target : CleanSlateTarget)
    (plan : DeletionPlan) (done : List OsPath) (before now : BeetsWorld) :
    Prop where
  tree : Wiped done before.library.directory beets.isClutter before.tree
    now.tree
  directory : now.library.directory = before.library.directory
  planned : ∀ path ∈ done, path ∈ plan.paths
  items : ∀ row ∈ now.library.items.rows, row ∈ before.library.items.rows
  left : ∀ row ∈ now.library.items.rows, target.ownsItem row = true →
    ∀ path ∈ done, path ∈ plan.toDelete ∧ path ≠ row.path

namespace Kept

variable {beets : Beets} {target : CleanSlateTarget} {plan : DeletionPlan}
  {done : List OsPath} {before now : BeetsWorld}

theorem refl (world : BeetsWorld) : Kept beets target plan [] world world where
  tree := Reduced.refl _
  directory := rfl
  planned := fun _ hpath => absurd hpath List.not_mem_nil
  items := fun _ hrow => hrow
  left := fun _ _ _ _ hpath => absurd hpath List.not_mem_nil

theorem spared (hkept : Kept beets target plan done before now)
    {paths : List OsPath} (hpaths : ∀ path ∈ done, path ∈ paths) {row : Item}
    (hspares : Spares beets before paths row) {location : Location String}
    (hresolve : before.tree.resolve? row.path = some location) :
    ¬ FileDeleted before now location := by
  rintro ⟨hfile, hgone⟩
  exact hgone ((hkept.tree.mono hpaths).file_stays hfile
    (hspares location hfile hresolve))

theorem sound {sourcePath : OsPath}
    (hunshared : Unshared beets before target sourcePath)
    (hkept : Kept beets target (planOf beets before target sourcePath) done
      before now) : SoundState target before now where
  rows := by
    intro row hrow location hresolve
    have hbefore := hkept.items row hrow
    cases hown : target.ownsItem row with
    | true =>
        refine hkept.spared (fun path hpath => ?_)
          (hunshared.entry row hbefore hown) hresolve
        obtain ⟨hplanned, hother⟩ := hkept.left row hrow hown path hpath
        exact List.mem_filter.mpr ⟨hplanned, decide_eq_true hother⟩
    | false =>
        exact hkept.spared hkept.planned (hunshared.others row hbefore hown)
          hresolve
  files := by
    intro row hrow location hresolve hdeleted
    by_contra hother
    exact hkept.spared hkept.planned
      (hunshared.others row hrow (Bool.eq_false_iff.mpr hother)) hresolve
      hdeleted

theorem dropItem (hkept : Kept beets target plan done before now) (id : Nat) :
    Kept beets target plan done before
      { now with library := now.library.dropItem id } where
  tree := hkept.tree
  directory := hkept.directory
  planned := hkept.planned
  items := fun row hrow => hkept.items row (KeyedTable.mem_delete.mp hrow).1
  left := fun row hrow => hkept.left row (KeyedTable.mem_delete.mp hrow).1

theorem dropAlbum (hkept : Kept beets target plan done before now)
    (id : Nat) :
    Kept beets target plan done before
      { now with library := now.library.dropAlbum id } :=
  ⟨hkept.tree, hkept.directory, hkept.planned, hkept.items, hkept.left⟩

/-- A planned path that is no path of a row left in the entry may be deleted
next. -/
theorem next (hkept : Kept beets target plan done before now) {path : OsPath}
    (hpath : path ∈ plan.paths)
    (hleft : ∀ row ∈ now.library.items.rows, target.ownsItem row = true →
      path ∈ plan.toDelete ∧ path ≠ row.path) :
    Kept beets target plan (path :: done) before now where
  tree := hkept.tree.mono fun _ hmem => List.mem_cons_of_mem _ hmem
  directory := hkept.directory
  planned := List.forall_mem_cons.mpr ⟨hpath, hkept.planned⟩
  items := hkept.items
  left := fun row hrow hown =>
    List.forall_mem_cons.mpr ⟨hleft row hrow hown, hkept.left row hrow hown⟩

theorem wiped {path : OsPath}
    (hkept : Kept beets target plan (path :: done) before now)
    {tree : FileTree String}
    (hwiped : Wiped [path] now.library.directory beets.isClutter now.tree
      tree) :
    Kept beets target plan (path :: done) before { now with tree := tree } where
  tree := by
    rw [hkept.directory] at hwiped
    refine hkept.tree.trans (hwiped.mono fun other hother => ?_)
    rw [List.mem_singleton.mp hother]
    exact List.mem_cons_self
  directory := hkept.directory
  planned := hkept.planned
  items := hkept.items
  left := hkept.left

end Kept

section Steps

variable {beets : Beets} {target : CleanSlateTarget}
  {before world after : BeetsWorld}

theorem leaves_of_completes {step : RemovalStep}
    (hstep : (removalMachine beets).completes step world after) :
    (removalMachine beets).leaves step world after :=
  .done hstep

/-- An invariant of whatever a step may leave holds of every state. -/
theorem passes_sound {holds : BeetsWorld → Prop} {program : List RemovalStep}
    (hpasses : (removalMachine beets).Passes program world after)
    (hleaves : ∀ step ∈ program, ∀ state next, holds state →
      (removalMachine beets).leaves step state next → holds next)
    (hworld : holds world) : holds after := by
  apply hpasses.sound _ hleaves hworld
  intro step hmem state next hstate hstep
  exact hleaves step hmem state next hstate (leaves_of_completes hstep)

/-- Deleting a file, whole or in part, takes away what there is a reason to
take. -/
theorem wiped_of_leaves {path : OsPath} {step : RemovalStep}
    (hmem : step ∈ deleteSteps path)
    (hleaves : (removalMachine beets).leaves step world after) :
    ∃ tree, after = { world with tree := tree } ∧
      Wiped [path] world.library.directory beets.isClutter world.tree tree := by
  have hpath : path ∈ [path] := List.mem_singleton_self path
  cases hleaves with
  | nothing => exact ⟨world.tree, rfl, Reduced.refl _⟩
  | @partly _ _ tree hpruned =>
      rcases List.mem_pair.mp hmem with hfile | hprune
      · cases hfile
      · cases hprune
        exact ⟨tree, rfl, Wiped.of_pruned hpath hpruned⟩
  | done hrun =>
      rcases List.mem_pair.mp hmem with rfl | rfl
      · rw [RemovalStep.run] at hrun
        cases hremove : beets.removeFile world.tree path with
        | error failure =>
            rw [hremove] at hrun
            cases hrun
        | ok tree =>
            rw [hremove] at hrun
            refine ⟨tree, (Except.ok.inj hrun).symm, ?_⟩
            rcases removeFile_eq_ok_iff.mp hremove with
              ⟨_, _, hremoved⟩ | ⟨_, rfl⟩
            · exact Wiped.of_remove hpath hremoved
            · exact Reduced.refl _
      · refine ⟨_, (Except.ok.inj hrun).symm, ?_⟩
        exact Wiped.of_pruned hpath (beets.pruneDirs_pruned _ _ _ _)

/-- The steps of a deletion keep the invariant and the rows. -/
theorem deleteSteps_kept {plan : DeletionPlan} {done : List OsPath}
    {path : OsPath} {step : RemovalStep}
    (hkept : Kept beets target plan (path :: done) before world)
    (hmem : step ∈ deleteSteps path)
    (hleaves : (removalMachine beets).leaves step world after) :
    Kept beets target plan (path :: done) before after := by
  obtain ⟨tree, rfl, hwiped⟩ := wiped_of_leaves hmem hleaves
  exact hkept.wiped hwiped

theorem leaves_send {event : String}
    (hleaves : (removalMachine beets).leaves (.send event) world after) :
    after = world := by
  cases hleaves with
  | nothing => rfl
  | done hrun => exact (Except.ok.inj hrun).symm

theorem leaves_dropItem {item : Item}
    (hleaves : (removalMachine beets).leaves (.dropItem item) world after) :
    after = world ∨
      after = { world with library := world.library.dropItem item.id } := by
  cases hleaves with
  | nothing => exact Or.inl rfl
  | done hrun => exact Or.inr (Except.ok.inj hrun).symm

theorem leaves_dropAlbum {album : Album}
    (hleaves : (removalMachine beets).leaves (.dropAlbum album) world after) :
    after = world ∨
      after = { world with library := world.library.dropAlbum album.id } := by
  cases hleaves with
  | nothing => exact Or.inl rfl
  | done hrun => exact Or.inr (Except.ok.inj hrun).symm

/-- What a removal comes to, however it is left. -/
def KeptSo (beets : Beets) (target : CleanSlateTarget) (plan : DeletionPlan)
    (before now : BeetsWorld) : Prop :=
  ∃ done, Kept beets target plan done before now

variable {plan : DeletionPlan} {done : List OsPath}

section Item

variable {item : Item}
  (hdistinct : (before.library.items.rows.map Item.path).Nodup)
  (hitem : item ∈ before.library.items.rows)

include hdistinct hitem in
/-- Once an item's row is gone no row that is left has its path. -/
theorem kept_dropItem (hkept : Kept beets target plan done before world)
    (hplanned : item.path ∈ plan.toDelete) :
    Kept beets target plan (item.path :: done) before
      { world with library := world.library.dropItem item.id } := by
  apply (hkept.dropItem item.id).next
    (DeletionPlan.mem_paths.mpr (.inl hplanned))
  intro row hrow _
  obtain ⟨hleft, hid⟩ := KeyedTable.mem_delete.mp hrow
  refine ⟨hplanned, fun hpath => hid (congrArg Item.id ?_)⟩
  exact List.inj_on_of_nodup_map hdistinct (hkept.items row hleft) hitem
    hpath.symm

include hdistinct hitem in
/-- The program of an item of the entry keeps the invariant. -/
theorem itemSteps_kept (hkept : Kept beets target plan done before world)
    (hpasses : (removalMachine beets).Passes (itemSteps plan.toDelete item)
      world after) : KeptSo beets target plan before after := by
  cases hpasses with
  | here => exact ⟨done, hkept⟩
  | cut hleaves =>
      rcases leaves_dropItem hleaves with rfl | rfl
      · exact ⟨done, hkept⟩
      · exact ⟨done, hkept.dropItem item.id⟩
  | next hstep hrest =>
      obtain rfl := Except.ok.inj hstep
      by_cases hplanned : item.path ∈ plan.toDelete
      · rw [if_pos (List.contains_iff_mem.mpr hplanned)] at hrest
        refine ⟨item.path :: done, passes_sound hrest ?_
          (kept_dropItem hdistinct hitem hkept hplanned)⟩
        intro step hmem state next hstate hleaves
        rcases List.mem_cons.mp hmem with rfl | hdelete
        · rw [leaves_send hleaves]
          exact hstate
        · exact deleteSteps_kept hstate hdelete hleaves
      · rw [if_neg (List.contains_iff_mem.not.mpr hplanned)] at hrest
        refine ⟨done, passes_sound hrest ?_ (hkept.dropItem item.id)⟩
        intro step hmem state next hstate hleaves
        rw [List.mem_singleton.mp hmem] at hleaves
        rw [leaves_send hleaves]
        exact hstate

end Item

section Loop

variable {toDelete : List OsPath}

/-- Rows only go. -/
theorem items_of_passes {program : List RemovalStep}
    (hpasses : (removalMachine beets).Passes program world after) :
    ∀ row ∈ after.library.items.rows, row ∈ world.library.items.rows := by
  let fewer (state : BeetsWorld) : Prop :=
    ∀ row ∈ state.library.items.rows, row ∈ world.library.items.rows
  refine @passes_sound beets world after fewer program hpasses ?_
    fun _ hrow => hrow
  intro step _ state next hstate hleaves row hrow
  apply hstate
  cases step with
  | dropItem item =>
      rcases leaves_dropItem hleaves with rfl | rfl
      · exact hrow
      · exact (KeyedTable.mem_delete.mp hrow).1
  | dropAlbum album =>
      rcases leaves_dropAlbum hleaves with rfl | rfl
      · exact hrow
      · exact hrow
  | send event =>
      rw [leaves_send hleaves] at hrow
      exact hrow
  | removeFile path =>
      have hmem : RemovalStep.removeFile path ∈ deleteSteps path :=
        List.mem_cons_self
      obtain ⟨tree, rfl, _⟩ := wiped_of_leaves hmem hleaves
      exact hrow
  | pruneDirs path =>
      have hmem : RemovalStep.pruneDirs path ∈ deleteSteps path :=
        List.mem_cons_of_mem _ List.mem_cons_self
      obtain ⟨tree, rfl, _⟩ := wiped_of_leaves hmem hleaves
      exact hrow

/-- An item's program takes the item's row. -/
theorem not_mem_of_itemSteps {item : Item}
    (hcompletes : (removalMachine beets).Completes (itemSteps toDelete item)
      world after) : item ∉ after.library.items.rows := by
  cases hcompletes with
  | cons hstep hrest =>
      obtain rfl := Except.ok.inj hstep
      intro hrow
      have hleft := items_of_passes hrest.passes item hrow
      exact (KeyedTable.mem_delete.mp hleft).2 rfl

/-- The loop over the items keeps the invariant wherever it is left. -/
theorem items_kept
    (hdistinct : (before.library.items.rows.map Item.path).Nodup)
    {items : List Item}
    (hitems : ∀ item ∈ items, item ∈ before.library.items.rows)
    (hkept : KeptSo beets target plan before world)
    (hpasses : (removalMachine beets).Passes
      (items.flatMap (itemSteps plan.toDelete)) world after) :
    KeptSo beets target plan before after := by
  induction items generalizing world with
  | nil =>
      cases hpasses with
      | here => exact hkept
  | cons item rest ih =>
      obtain ⟨done, hdone⟩ := hkept
      have hitem := hitems item List.mem_cons_self
      rw [List.flatMap_cons] at hpasses
      rcases Interruptible.passes_append_iff.mp hpasses with
        hhead | ⟨middle, hhead, hrest⟩
      · exact itemSteps_kept hdistinct hitem hdone hhead
      · apply ih
        · exact fun other hmem => hitems other (List.mem_cons_of_mem _ hmem)
        · exact itemSteps_kept hdistinct hitem hdone hhead.passes
        · exact hrest

/-- The completed loop has taken the rows of all its items. -/
theorem items_gone {items : List Item}
    (hcompletes : (removalMachine beets).Completes
      (items.flatMap (itemSteps toDelete)) world after) :
    ∀ item ∈ items, item ∉ after.library.items.rows := by
  induction items generalizing world with
  | nil => exact fun _ hmem => absurd hmem List.not_mem_nil
  | cons item rest ih =>
      rw [List.flatMap_cons] at hcompletes
      obtain ⟨middle, hhead, hrest⟩ :=
        Interruptible.completes_append_iff.mp hcompletes
      intro other hother
      rcases List.mem_cons.mp hother with rfl | hother
      · intro hrow
        exact not_mem_of_itemSteps hhead
          (items_of_passes hrest.passes other hrow)
      · exact ih hrest other hother

end Loop

/-- Once no row of the entry is left, the album's row and its art go. -/
theorem albumSteps_kept {album : Album} {art : Option OsPath}
    (hart : ∀ path ∈ art, path ∈ plan.paths)
    (houtside : ∀ row ∈ world.library.items.rows,
      target.ownsItem row = false)
    (hkept : Kept beets target plan done before world)
    (hpasses : (removalMachine beets).Passes (albumSteps album art) world
      after) : KeptSo beets target plan before after := by
  cases art with
  | none =>
      refine ⟨done, passes_sound hpasses ?_ hkept⟩
      intro step hmem state next hstate hleaves
      rcases List.mem_pair.mp hmem with rfl | rfl
      · rcases leaves_dropAlbum hleaves with rfl | rfl
        · exact hstate
        · exact hstate.dropAlbum album.id
      · rw [leaves_send hleaves]
        exact hstate
  | some path =>
      have hready : Kept beets target plan (path :: done) before world := by
        refine hkept.next (hart path rfl) fun row hrow hown => ?_
        rw [houtside row hrow] at hown
        cases hown
      refine ⟨path :: done, passes_sound hpasses ?_ hready⟩
      intro step hmem state next hstate hleaves
      unfold albumSteps at hmem
      rw [List.mem_cons, List.mem_cons] at hmem
      rcases hmem with rfl | rfl | hdelete
      · rcases leaves_dropAlbum hleaves with rfl | rfl
        · exact hstate
        · exact hstate.dropAlbum album.id
      · rw [leaves_send hleaves]
        exact hstate
      · exact deleteSteps_kept hstate hdelete hleaves

end Steps

/-- In a library whose rows share no path, and whose plan takes no row's file
but by the row's own path, every state of the removal, however it is
interrupted, leaves no row without its file and has deleted no file of a row
but the target's. -/
theorem removal_is_sound_throughout (beets : Beets) (target : CleanSlateTarget)
    (sourcePath : OsPath) (before now : BeetsWorld)
    (hdistinct : (before.library.items.rows.map Item.path).Nodup)
    (hunshared : Unshared beets before target sourcePath)
    (hpasses : RemovalPasses beets target sourcePath before now) :
    SoundState target before now := by
  suffices hkept : KeptSo beets target
      (planOf beets before target sourcePath) before now by
    obtain ⟨done, hdone⟩ := hkept
    exact hdone.sound hunshared
  have hbefore : KeptSo beets target (planOf beets before target sourcePath)
      before before := ⟨[], Kept.refl before⟩
  unfold RemovalPasses at hpasses
  cases hentry : loadEntry beets before.library target with
  | none =>
      rw [hentry] at hpasses
      rw [hpasses]
      exact hbefore
  | some entry =>
      rw [hentry] at hpasses
      have hitems : ∀ item ∈ entry.items,
          item ∈ before.library.items.rows :=
        fun item hmem => ((mem_items_of_loadEntry hentry item).mp hmem).1
      rcases Interruptible.passes_append_iff.mp hpasses with
        hloop | ⟨middle, hloop, halbum⟩
      · exact items_kept hdistinct hitems hbefore hloop
      · obtain ⟨done, hdone⟩ :=
          items_kept hdistinct hitems hbefore hloop.passes
        have houtside : ∀ row ∈ middle.library.items.rows,
            target.ownsItem row = false := by
          intro row hrow
          by_contra howned
          have hmem := (mem_items_of_loadEntry hentry row).mpr
            ⟨hdone.items row hrow, Bool.not_eq_false _ ▸ howned⟩
          exact items_gone hloop row hmem hrow
        cases hchosen : entry.album with
        | none =>
            rw [hchosen] at halbum
            cases halbum with
            | here => exact ⟨done, hdone⟩
        | some album =>
            rw [hchosen] at halbum
            exact albumSteps_kept
              (fun path hpath => DeletionPlan.mem_paths.mpr (.inr hpath))
              houtside hdone halbum

/-- The clean slate of an album none of whose files is shared. -/
theorem removal_of_album_is_sound_throughout :
    (albumWorld.library.items.rows.map Item.path).Nodup ∧
    Unshared plainBeets albumWorld ⟨.album, 1⟩ (spell ["downloads", "Album"]) ∧
    SoundState ⟨.album, 1⟩ albumWorld
      (removeEntry plainBeets albumWorld ⟨.album, 1⟩
        (spell ["downloads", "Album"])).1 := by
  have hunshared : Unshared plainBeets albumWorld ⟨.album, 1⟩
      (spell ["downloads", "Album"]) := by
    have hplan : (planOf plainBeets albumWorld ⟨.album, 1⟩
        (spell ["downloads", "Album"])).toDelete.filter (fun path =>
          decide (path ≠ spell ["music", "Album", "01.mp3"])) = [] := by
      decide
    constructor
    · intro row hrow _ location _ _ hdoomed
      rw [List.mem_singleton.mp hrow] at hdoomed
      change Doomed ((planOf plainBeets albumWorld ⟨.album, 1⟩
        (spell ["downloads", "Album"])).toDelete.filter (fun path =>
          decide (path ≠ spell ["music", "Album", "01.mp3"]))) _ _ _ _ _
        at hdoomed
      rw [hplan] at hdoomed
      exact Doomed.not_nil hdoomed
    · intro row hrow houtside
      rw [List.mem_singleton.mp hrow] at houtside
      cases houtside
  refine ⟨by decide, hunshared, ?_⟩
  exact removal_is_sound_throughout plainBeets ⟨.album, 1⟩
    (spell ["downloads", "Album"]) albumWorld _ (by decide) hunshared
    (removeEntry_passes plainBeets albumWorld ⟨.album, 1⟩
      (spell ["downloads", "Album"]))

/-- The album's art is the file of the other track. -/
def sharedArtWorld : BeetsWorld where
  library := sharedLibrary (spell ["music", "Other", "01.mp3"])
    (spell ["music", "Other", "01.mp3"])
  tree :=
    { files := [["music", "Album", "01.mp3"], ["music", "Other", "01.mp3"]]
      dirs := [["music"], ["music", "Album"], ["music", "Other"]]
      links := []
      entries_nodup := by decide
      rooted := by decide
      physical := by decide }
  media := fun _ => none

/-- The other track's path leads to the album's file through a link. -/
def sharedLinkWorld : BeetsWorld where
  library := sharedLibrary (spell ["music", "Album", "cover.jpg"])
    (spell ["music", "Linked", "01.mp3"])
  tree :=
    { files := [["music", "Album", "01.mp3"]]
      dirs := [["music"], ["music", "Album"]]
      links := [(["music", "Linked"], ["music", "Album"])]
      entries_nodup := by decide
      rooted := by decide
      physical := by decide }
  media := fun _ => none

/-- The removal of album 1 deletes the file of a row that shares no path with
another. -/
def TakesSharedFile (world : BeetsWorld) : Prop :=
  (world.library.items.rows.map Item.path).Nodup ∧
    ∃ now, RemovalPasses plainBeets ⟨.album, 1⟩ (spell ["downloads", "Album"])
        world now ∧
      ¬ SoundState ⟨.album, 1⟩ world now

/-- Rows with different paths do not keep the removal from deleting the other
track's file: as the album's art, through a link, or as clutter. -/
theorem removal_takes_shared_files :
    TakesSharedFile sharedArtWorld ∧ TakesSharedFile sharedLinkWorld ∧
      TakesSharedFile sharedFolderWorld := by
  have hstate := fun world => removeEntry_passes plainBeets world ⟨.album, 1⟩
    (spell ["downloads", "Album"])
  refine ⟨?_, ?_, ?_⟩
  · refine ⟨by decide, _, hstate sharedArtWorld, fun hsound => ?_⟩
    exact hsound.rows (otherRow (spell ["music", "Other", "01.mp3"]))
      (by decide) ["music", "Other", "01.mp3"] (by decide) (by decide)
  · refine ⟨by decide, _, hstate sharedLinkWorld, fun hsound => ?_⟩
    exact hsound.rows (otherRow (spell ["music", "Linked", "01.mp3"]))
      (by decide) ["music", "Album", "01.mp3"] (by decide) (by decide)
  · refine ⟨by decide, _, hstate sharedFolderWorld, fun hsound => ?_⟩
    exact hsound.rows (otherRow (spell ["music", "Album", "Thumbs.DB"]))
      (by decide) ["music", "Album", "Thumbs.DB"] (by decide) (by decide)

end Beetkeeper
