/-
Deleting files and then the folders this leaves empty.  Which entries a
sequence of such steps may take away is said by a reason for each of them, in
terms of the tree it started from; the reasons survive removals, so steps
compose.
-/
import Beetkeeper.FileTree

open LexicalPath

universe u

namespace FileTree

variable {N : Type u} [DecidableEq N]

/-- `after` was obtained from `before` by removing entries, each for a reason,
and no directory without what it held. -/
structure Reduced (reason : FileTree N → Location N → Prop)
    (before after : FileTree N) : Prop where
  shrinks : Shrinks after before
  reasoned : ∀ location, before.occupied location = true →
    after.occupied location = false → reason before location
  closed : ∀ folder ∈ before.dirs, folder ∉ after.dirs →
    ∀ location, folder <+: location → after.occupied location = false

theorem Shrinks.occupied {smaller larger : FileTree N}
    (hshrinks : Shrinks smaller larger) {location : Location N}
    (hoccupied : smaller.occupied location = true) :
    larger.occupied location = true := by
  rw [occupied_iff] at hoccupied ⊢
  rcases hoccupied with hfile | hdir | ⟨target, hlink⟩
  · exact Or.inl (hshrinks.files _ hfile)
  · exact Or.inr (Or.inl (hdir.imp_right (hshrinks.dirs _)))
  · exact Or.inr (Or.inr ⟨target, hshrinks.links _ hlink⟩)

/-- What is still there in place of a directory is that directory. -/
theorem Shrinks.isDir_of_occupied {smaller larger : FileTree N}
    (hshrinks : Shrinks smaller larger) {location : Location N}
    (hdir : larger.isDir location = true)
    (hoccupied : smaller.occupied location = true) :
    smaller.isDir location = true := by
  rw [isDir_iff] at hdir ⊢
  rcases hdir with hroot | hdir
  · exact Or.inl hroot
  · rcases occupied_iff.mp hoccupied with hfile | hsame | ⟨target, hlink⟩
    · exact absurd hdir
        (not_mem_dirs_of_mem_files (hshrinks.files _ hfile))
    · exact hsame
    · have hlarge := link?_eq_some_iff.mpr (hshrinks.links _ hlink)
      exact absurd hdir (not_mem_of_link? hlarge).2

/-- What is still there in place of a file is that file. -/
theorem Shrinks.file_of_occupied {smaller larger : FileTree N}
    (hshrinks : Shrinks smaller larger) {location : Location N}
    (hlarger : location ∈ larger.files)
    (hoccupied : smaller.occupied location = true) :
    location ∈ smaller.files := by
  rcases occupied_iff.mp hoccupied with hfile | hdir | ⟨target, hlink⟩
  · exact hfile
  · rcases hdir with rfl | hdir
    · exact absurd (List.mem_append_left _ (List.mem_append_left _ hlarger))
        larger.rooted
    · exact absurd (hshrinks.dirs _ hdir) (not_mem_dirs_of_mem_files hlarger)
  · have hlarge := link?_eq_some_iff.mpr (hshrinks.links _ hlink)
    exact absurd hlarger (not_mem_of_link? hlarge).1

namespace Reduced

variable {reason : FileTree N → Location N → Prop}

theorem refl (tree : FileTree N) : Reduced reason tree tree where
  shrinks := Shrinks.refl tree
  reasoned := by
    intro location hbefore hafter
    rw [hbefore] at hafter
    cases hafter
  closed := fun _ hmem hnot => absurd hmem hnot

theorem imp {weaker : FileTree N → Location N → Prop}
    (himp : ∀ tree location, reason tree location → weaker tree location)
    {before after : FileTree N} (hreduced : Reduced reason before after) :
    Reduced weaker before after where
  shrinks := hreduced.shrinks
  reasoned := fun location hbefore hafter =>
    himp _ _ (hreduced.reasoned location hbefore hafter)
  closed := hreduced.closed

/-- Removals compose when what has a reason to go after some of them had one
before. -/
theorem trans
    (hkeep : ∀ before middle location, Reduced reason before middle →
      reason middle location → reason before location)
    {before middle after : FileTree N} (hfirst : Reduced reason before middle)
    (hsecond : Reduced reason middle after) : Reduced reason before after where
  shrinks := hsecond.shrinks.trans hfirst.shrinks
  reasoned := by
    intro location hbefore hafter
    cases hmiddle : middle.occupied location with
    | true =>
        exact hkeep _ _ _ hfirst (hsecond.reasoned location hmiddle hafter)
    | false => exact hfirst.reasoned location hbefore hmiddle
  closed := by
    intro folder hbefore hafter location hbelow
    by_cases hmiddle : folder ∈ middle.dirs
    · exact hsecond.closed folder hmiddle hafter location hbelow
    · have hgone := hfirst.closed folder hbefore hmiddle location hbelow
      by_contra hoccupied
      rw [Bool.not_eq_false] at hoccupied
      rw [hsecond.shrinks.occupied hoccupied] at hgone
      cases hgone

/-- A file that nothing gives a reason to remove stays. -/
theorem file_stays {before after : FileTree N}
    (hreduced : Reduced reason before after) {location : Location N}
    (hfile : location ∈ before.files) (hreason : ¬ reason before location) :
    location ∈ after.files := by
  have hbefore : before.occupied location = true :=
    occupied_iff.mpr (Or.inl hfile)
  cases hafter : after.occupied location with
  | true => exact hreduced.shrinks.file_of_occupied hfile hafter
  | false => exact absurd (hreduced.reasoned location hbefore hafter) hreason

section Lookup

variable {before after : FileTree N}
  (hlinks : ∀ link ∈ before.links, before.isDir link.2 = true →
    link ∈ after.links)

end Lookup

end Reduced

/-- What deleting `paths` and pruning `dirs` upwards to `root` may take away:
the files and links that are named, the folders on the way, below `root`,
that hold nothing but clutter when the rest has gone, and their clutter.  A
folder on the way goes only after the one below it. -/
inductive Doomed (paths dirs : List (RawPath N)) (root : Location N)
    (clutter : N → Bool) (tree : FileTree N) : Location N → Prop
  | named {path : RawPath N} {location : Location N} (hpath : path ∈ paths)
      (hentry : tree.entryAt path = some location)
      (hkind : location ∈ tree.files ∨
        ∃ target, (location, target) ∈ tree.links) :
      Doomed paths dirs root clutter tree location
  | emptied {dir : RawPath N} {spelled folder : Location N}
      (hdir : dir ∈ dirs) (hroot : root <+: spelled) (hne : spelled ≠ root)
      (hway : spelled <+: normpath dir)
      (hentry : tree.entryAt (spell spelled) = some folder)
      (hfolder : folder ∈ tree.dirs)
      (hrest : ∀ n, tree.occupied (folder ++ [n]) = true →
        clutter n = false ∨
          spelled ++ [n] <+: normpath dir ∧ folder ++ [n] ∈ tree.dirs →
        Doomed paths dirs root clutter tree (folder ++ [n])) :
      Doomed paths dirs root clutter tree folder
  | clutter {folder : Location N} {n : N} {rest : Location N}
      (hgoes : Doomed paths dirs root clutter tree folder)
      (hfolder : folder ∈ tree.dirs) (hn : clutter n = true) :
      Doomed paths dirs root clutter tree (folder ++ n :: rest)

/-- What pruning `dir` upwards to `root` does: folders on the way that hold
nothing but clutter may go, with the clutter. -/
abbrev Pruned (root : Location N) (dir : RawPath N) (clutter : N → Bool) :
    FileTree N → FileTree N → Prop :=
  Reduced (Doomed [] [dir] root clutter)

/-- What deleting some paths and pruning their folders does. -/
abbrev Wiped (paths : List (RawPath N)) (root : Location N)
    (clutter : N → Bool) : FileTree N → FileTree N → Prop :=
  Reduced (Doomed paths (paths.map List.dropLast) root clutter)

namespace Doomed

variable {paths dirs : List (RawPath N)} {root : Location N}
  {clutter : N → Bool}

theorem mono {morePaths moreDirs : List (RawPath N)}
    (hpaths : ∀ path ∈ paths, path ∈ morePaths)
    (hdirs : ∀ dir ∈ dirs, dir ∈ moreDirs) {tree : FileTree N}
    {location : Location N}
    (hdoomed : Doomed paths dirs root clutter tree location) :
    Doomed morePaths moreDirs root clutter tree location := by
  induction hdoomed with
  | named hpath hentry hkind => exact .named (hpaths _ hpath) hentry hkind
  | emptied hdir hroot hne hway hentry hfolder _ ih =>
      exact .emptied (hdirs _ hdir) hroot hne hway hentry hfolder ih
  | clutter _ hfolder hn ih => exact .clutter ih hfolder hn

/-- Deleting nothing takes nothing. -/
theorem not_nil {tree : FileTree N} {location : Location N} :
    ¬ Doomed [] [] root clutter tree location := by
  intro hdoomed
  induction hdoomed with
  | named hpath _ _ => cases hpath
  | emptied hdir _ _ _ _ _ _ _ => cases hdir
  | clutter _ _ _ ih => exact ih

/-- What is doomed after removals was doomed before: what the removals have
taken had a reason too. -/
theorem of_reduced {before middle : FileTree N} {location : Location N}
    (hreduced : Reduced (Doomed paths dirs root clutter) before middle)
    (hdoomed : Doomed paths dirs root clutter middle location) :
    Doomed paths dirs root clutter before location := by
  have hshrinks := hreduced.shrinks
  induction hdoomed with
  | named hpath hentry hkind =>
      refine .named hpath (hshrinks.entryAt hentry) ?_
      exact hkind.imp (hshrinks.files _)
        (Exists.imp fun _ hlink => hshrinks.links _ hlink)
  | emptied hdir hroot hne hway hentry hfolder _ ih =>
      refine .emptied hdir hroot hne hway (hshrinks.entryAt hentry)
        (hshrinks.dirs _ hfolder) fun n hbefore hcase => ?_
      cases hmiddle : middle.occupied (_ ++ [n]) with
      | false => exact hreduced.reasoned _ hbefore hmiddle
      | true =>
          refine ih n hmiddle (hcase.imp_right (And.imp_right fun hdirs => ?_))
          have hleft := hshrinks.isDir_of_occupied
            (isDir_iff.mpr (Or.inr hdirs)) hmiddle
          exact (isDir_iff.mp hleft).resolve_left (by simp)
  | clutter _ hfolder hn ih => exact .clutter ih (hshrinks.dirs _ hfolder) hn

end Doomed

/-- The entry is a folder that was reached from below `root` on the way to
`dir`, or is or lies in something of it that is called like clutter. -/
def OnTheWay (root : Location N) (dir : RawPath N) (clutter : N → Bool)
    (tree : FileTree N) (location : Location N) : Prop :=
  ∃ spelled folder, root <+: spelled ∧ spelled ≠ root ∧
    spelled <+: normpath dir ∧ tree.resolve? (spell spelled) = some folder ∧
    folder ∈ tree.dirs ∧
    (location = folder ∨
      ∃ n rest, location = folder ++ n :: rest ∧ clutter n = true)

/-- A bound on what deleting some paths and pruning their folders takes away
that does not ask what else the folders hold. -/
def WipeReason (paths : List (RawPath N)) (root : Location N)
    (clutter : N → Bool) (tree : FileTree N) (location : Location N) : Prop :=
  ∃ path ∈ paths, tree.entryAt path = some location ∨
    OnTheWay root path.dropLast clutter tree location

theorem OnTheWay.of_shrinks {root : Location N} {dir : RawPath N}
    {clutter : N → Bool} {smaller larger : FileTree N} {location : Location N}
    (hshrinks : Shrinks smaller larger)
    (hway : OnTheWay root dir clutter smaller location) :
    OnTheWay root dir clutter larger location := by
  obtain ⟨spelled, folder, hroot, hne, hdir, hresolve, hfolder, hplace⟩ := hway
  exact ⟨spelled, folder, hroot, hne, hdir, hshrinks.resolve? hresolve,
    hshrinks.dirs _ hfolder, hplace⟩

/-- Clutter of what is clutter of a folder on the way is that folder's. -/
theorem OnTheWay.clutter {root : Location N} {dir : RawPath N}
    {clutter : N → Bool} {tree : FileTree N} {location : Location N} {n : N}
    (hway : OnTheWay root dir clutter tree location) (hn : clutter n = true)
    (rest : Location N) :
    OnTheWay root dir clutter tree (location ++ n :: rest) := by
  obtain ⟨spelled, folder, hroot, hne, hdir, hresolve, hfolder, hplace⟩ := hway
  refine ⟨spelled, folder, hroot, hne, hdir, hresolve, hfolder, Or.inr ?_⟩
  rcases hplace with rfl | ⟨m, inner, rfl, hm⟩
  · exact ⟨n, rest, rfl, hn⟩
  · exact ⟨m, inner ++ n :: rest, by simp, hm⟩

theorem WipeReason.of_shrinks {paths : List (RawPath N)} {root : Location N}
    {clutter : N → Bool} {smaller larger : FileTree N} {location : Location N}
    (hshrinks : Shrinks smaller larger)
    (hreason : WipeReason paths root clutter smaller location) :
    WipeReason paths root clutter larger location := by
  obtain ⟨path, hpath, hentry | hway⟩ := hreason
  · exact ⟨path, hpath, Or.inl (hshrinks.entryAt hentry)⟩
  · exact ⟨path, hpath, Or.inr (hway.of_shrinks hshrinks)⟩

theorem Doomed.wipeReason {paths : List (RawPath N)} {root : Location N}
    {clutter : N → Bool} {tree : FileTree N} {location : Location N}
    (hdoomed : Doomed paths (paths.map List.dropLast) root clutter tree
      location) : WipeReason paths root clutter tree location := by
  -- a folder that goes is on the way; what is named is no folder
  have hcases : (∃ path ∈ paths, tree.entryAt path = some location ∧
        location ∉ tree.dirs) ∨
      ∃ path ∈ paths,
        OnTheWay root path.dropLast clutter tree location := by
    induction hdoomed with
    | named hpath hentry hkind =>
        refine Or.inl ⟨_, hpath, hentry, ?_⟩
        rcases hkind with hfile | ⟨target, hlink⟩
        · exact not_mem_dirs_of_mem_files hfile
        · exact (not_mem_of_link? (link?_eq_some_iff.mpr hlink)).2
    | emptied hdir hroot hne hway hentry hfolder _ _ =>
        obtain ⟨path, hpath, rfl⟩ := List.mem_map.mp hdir
        exact Or.inr ⟨path, hpath, _, _, hroot, hne, hway,
          resolve?_of_entryAt hentry (Or.inr hfolder), hfolder, Or.inl rfl⟩
    | clutter _ hfolder hn ih =>
        rcases ih with ⟨_, _, _, hnot⟩ | ⟨path, hpath, hway⟩
        · exact absurd hfolder hnot
        · exact Or.inr ⟨path, hpath, hway.clutter hn _⟩
  rcases hcases with ⟨path, hpath, hentry, _⟩ | ⟨path, hpath, hway⟩
  · exact ⟨path, hpath, Or.inl hentry⟩
  · exact ⟨path, hpath, Or.inr hway⟩

theorem Pruned.trans {root : Location N} {dir : RawPath N}
    {clutter : N → Bool} {before middle after : FileTree N}
    (hfirst : Pruned root dir clutter before middle)
    (hsecond : Pruned root dir clutter middle after) :
    Pruned root dir clutter before after :=
  Reduced.trans (fun _ _ _ => Doomed.of_reduced) hfirst hsecond

namespace Wiped

variable {paths : List (RawPath N)} {root : Location N} {clutter : N → Bool}

theorem trans {before middle after : FileTree N}
    (hfirst : Wiped paths root clutter before middle)
    (hsecond : Wiped paths root clutter middle after) :
    Wiped paths root clutter before after :=
  Reduced.trans (fun _ _ _ => Doomed.of_reduced) hfirst hsecond

/-- Removing one of the paths is part of it. -/
theorem of_remove {path : RawPath N} (hpath : path ∈ paths)
    {before after : FileTree N} (hremove : before.remove? path = some after) :
    Wiped paths root clutter before after := by
  obtain ⟨location, hentry, hkind, rfl⟩ := remove?_eq_some_iff.mp hremove
  refine ⟨before.restrict_shrinks _, ?_, ?_⟩
  · intro other hbefore hafter
    have hsame : other = location := by
      by_contra hne
      rw [Bool.eq_false_iff] at hafter
      exact hafter (occupied_restrict.mpr
        (Or.inr ⟨hbefore, decide_eq_true hne⟩))
    subst hsame
    exact .named hpath hentry hkind
  · intro folder hbefore hafter
    have hsame : folder = location := by
      by_contra hne
      exact hafter (List.mem_filter.mpr ⟨hbefore, decide_eq_true hne⟩)
    subst hsame
    rcases hkind with hfile | ⟨target, hlink⟩
    · exact absurd hbefore (not_mem_dirs_of_mem_files hfile)
    · exact absurd hbefore (not_mem_of_link? (link?_eq_some_iff.mpr hlink)).2

theorem mono {more : List (RawPath N)} (hmore : ∀ path ∈ paths, path ∈ more)
    {before after : FileTree N}
    (hwiped : Wiped paths root clutter before after) :
    Wiped more root clutter before after := by
  refine Reduced.imp (fun _ _ hdoomed => hdoomed.mono hmore ?_) hwiped
  intro dir hdir
  obtain ⟨path, hpath, rfl⟩ := List.mem_map.mp hdir
  exact List.mem_map_of_mem (hmore path hpath)

theorem of_pruned {path : RawPath N} (hpath : path ∈ paths)
    {before after : FileTree N}
    (hpruned : Pruned root path.dropLast clutter before after) :
    Wiped paths root clutter before after := by
  refine Reduced.imp (fun _ _ hdoomed => hdoomed.mono ?_ ?_) hpruned
  · exact fun _ hmem => absurd hmem List.not_mem_nil
  · intro dir hmem
    rw [List.mem_singleton.mp hmem]
    exact List.mem_map_of_mem hpath

end Wiped

/-- Without links, a path in normal form still leads to its place when
nothing at or above it had a reason to go. -/
theorem Reduced.resolve?_stays {reason : FileTree N → Location N → Prop}
    {before after : FileTree N} (hreduced : Reduced reason before after)
    (hlinks : before.links = []) {place : Location N}
    (hstays : ∀ location, location <+: place → ¬ reason before location)
    (hresolve : before.resolve? (spell place) = some place) :
    after.resolve? (spell place) = some place := by
  induction place using List.reverseRecOn with
  | nil => rfl
  | append_singleton above n ih =>
      have hafter : after.links = [] :=
        List.eq_nil_iff_forall_not_mem.mpr fun link hlink => by
          have hbefore := hreduced.shrinks.links link hlink
          rw [hlinks] at hbefore
          cases hbefore
      have hleft : ∀ location, location <+: above ++ [n] →
          before.occupied location = true →
          after.occupied location = true := by
        intro location hpre hbefore
        by_contra hgone
        exact hstays location hpre
          (hreduced.reasoned _ hbefore (Bool.eq_false_iff.mpr hgone))
      rw [spell_concat, resolve?_concat] at hresolve ⊢
      obtain ⟨parent, hparent, henter⟩ := hresolve
      obtain ⟨hdir, hreached, hfollow⟩ := enter?_eq_some_iff.mp henter
      have hsame := resolve?_of_links_nil hlinks hparent
      rw [normpath_spell] at hsame
      subst hsame
      have hup : ∀ location, location <+: parent →
          location <+: parent ++ [n] :=
        fun location hpre => hpre.trans (List.prefix_append _ _)
      refine ⟨parent, ih (fun location hpre => hstays _ (hup _ hpre)) hparent,
        enter?_eq_some_iff.mpr ⟨?_, ?_, ?_⟩⟩
      · apply hreduced.shrinks.isDir_of_occupied hdir
        exact hleft parent (List.prefix_append _ _)
          (by rw [occupied, hdir, Bool.or_true, Bool.true_or])
      · rcases hreached with hfile | hplace
        · exact Or.inl (hreduced.shrinks.file_of_occupied hfile
            (hleft _ List.prefix_rfl (occupied_iff.mpr (Or.inl hfile))))
        · refine Or.inr (hreduced.shrinks.isDir_of_occupied hplace ?_)
          exact hleft _ List.prefix_rfl
            (by rw [occupied, hplace, Bool.or_true, Bool.true_or])
      · rw [follow_of_links_nil hafter]
        rfl

/-- The names a folder holds. -/
def listdir (tree : FileTree N) (folder : Location N) : List N :=
  (tree.files ++ tree.dirs ++ tree.links.map Prod.fst).filterMap
    fun location =>
      if folder <+: location then (location.drop folder.length).head? else none

/-- Remove a folder and all it holds; links in it are not followed. -/
def rmtree (tree : FileTree N) (folder : Location N) : FileTree N :=
  tree.restrict fun location => !decide (folder <+: location)

/-- Remove folders, innermost first, for as long as they hold only clutter. -/
def pruneFolders (clutter : N → Bool) :
    List (Location N) → FileTree N → FileTree N
  | [], tree => tree
  | spelled :: outer, tree =>
      match tree.resolve? (spell spelled) with
      | none => pruneFolders clutter outer tree
      | some folder =>
          -- a link to a folder is not a folder to remove
          if decide (folder ∈ tree.dirs) &&
              decide (tree.entryAt (spell spelled) = some folder) &&
              (tree.listdir folder).all clutter then
            pruneFolders clutter outer (tree.rmtree folder)
          else tree

/-- Prune the folder `dir` and those above it, strictly below `root`. -/
def pruneDirs (root : Location N) (dir : RawPath N) (clutter : N → Bool)
    (tree : FileTree N) : FileTree N :=
  let path := normpath dir
  pruneFolders clutter
    ((ancestry path ++ [path]).filter fun spelled =>
      decide (root <+: spelled) && decide (spelled ≠ root)).reverse tree

/-- Nothing at the end of the path is a folder to remove. -/
def NoFolder (tree : FileTree N) (spelled : Location N) : Prop :=
  ∀ folder, tree.entryAt (spell spelled) = some folder → folder ∉ tree.dirs

theorem NoFolder.of_shrinks {smaller larger : FileTree N}
    (hshrinks : Shrinks smaller larger) {spelled : Location N}
    (hnone : NoFolder larger spelled) : NoFolder smaller spelled :=
  fun _ hentry hfolder =>
    hnone _ (hshrinks.entryAt hentry) (hshrinks.dirs _ hfolder)

theorem mem_listdir {tree : FileTree N} {folder : Location N} {n : N}
    {rest : Location N} (hoccupied : tree.occupied (folder ++ n :: rest) =
      true) : n ∈ tree.listdir folder := by
  refine List.mem_filterMap.mpr ⟨folder ++ n :: rest, ?_, by simp⟩
  rcases occupied_iff.mp hoccupied with hfile | (hroot | hdir) | ⟨target, hlink⟩
  · exact List.mem_append_left _ (List.mem_append_left _ hfile)
  · simp at hroot
  · exact List.mem_append_left _ (List.mem_append_right _ hdir)
  · exact List.mem_append_right _ (List.mem_map.mpr ⟨_, hlink, rfl⟩)

/-- Removing a folder that holds only clutter is part of the pruning, once
what is below it on the way is no folder any more. -/
theorem rmtree_pruned {root spelled : Location N} {dir : RawPath N}
    {clutter : N → Bool} (hroot : root <+: spelled) (hne : spelled ≠ root)
    (hway : spelled <+: normpath dir) {tree : FileTree N}
    {folder : Location N}
    (hentry : tree.entryAt (spell spelled) = some folder)
    (hfolder : folder ∈ tree.dirs)
    (hclutter : (tree.listdir folder).all clutter = true)
    (hbelow : ∀ n, spelled ++ [n] <+: normpath dir →
      NoFolder tree (spelled ++ [n])) :
    Pruned root dir clutter tree (tree.rmtree folder) := by
  have hall : ∀ {n rest}, tree.occupied (folder ++ n :: rest) = true →
      clutter n = true :=
    fun hoccupied => List.all_eq_true.mp hclutter _ (mem_listdir hoccupied)
  have hgoes : Doomed [] [dir] root clutter tree folder := by
    refine .emptied (List.mem_singleton_self dir) hroot hne hway hentry
      hfolder fun n hoccupied hcase => ?_
    rcases hcase with hother | ⟨hnext, hdirs⟩
    · rw [hall hoccupied] at hother
      cases hother
    · have hinner : tree.entryAt (spell (spelled ++ [n])) =
          some (folder ++ [n]) := by
        rw [spell_concat, entryAt_concat]
        exact ⟨folder, resolve?_of_entryAt hentry (Or.inr hfolder),
          isDir_iff.mpr (Or.inr hfolder), rfl⟩
      exact absurd hdirs (hbelow n hnext _ hinner)
  have hfolder_ne : folder ≠ [] := by
    rintro rfl
    exact tree.rooted
      (List.mem_append_left _ (List.mem_append_right _ hfolder))
  refine ⟨tree.restrict_shrinks _, ?_, ?_⟩
  · intro location hbefore hafter
    have hpre : folder <+: location := by
      by_contra hnot
      rw [Bool.eq_false_iff] at hafter
      exact hafter (occupied_restrict.mpr (Or.inr ⟨hbefore, by simp [hnot]⟩))
    obtain ⟨below, rfl⟩ := hpre
    cases below with
    | nil => simpa using hgoes
    | cons n rest => exact .clutter hgoes hfolder (hall hbefore)
  · intro inner hbefore hafter location hbelow
    have hpre : folder <+: inner := by
      by_contra hnot
      exact hafter (List.mem_filter.mpr ⟨hbefore, by simp [hnot]⟩)
    rw [Bool.eq_false_iff]
    intro hoccupied
    rcases occupied_restrict.mp hoccupied with rfl | ⟨_, hkeep⟩
    · exact hfolder_ne (List.prefix_nil.mp (hpre.trans hbelow))
    · simp [hpre.trans hbelow] at hkeep

theorem not_mem_rmtree_dirs (tree : FileTree N) (folder : Location N) :
    folder ∉ (tree.rmtree folder).dirs := by
  intro hmem
  have hkeep := (List.mem_filter.mp hmem).2
  simp at hkeep

omit [DecidableEq N] in
theorem concat_ne_of_length {spelled other : Location N} {n : N}
    (hlength : other.length ≤ spelled.length) : spelled ++ [n] ≠ other := by
  rintro rfl
  rw [List.length_append, List.length_singleton] at hlength
  omega

/-- The folders come innermost first, so when one is looked at those below it
on the way are done with. -/
theorem pruneFolders_pruned {root : Location N} {dir : RawPath N}
    {clutter : N → Bool} {folders : List (Location N)}
    (hfolders : ∀ spelled ∈ folders,
      root <+: spelled ∧ spelled ≠ root ∧ spelled <+: normpath dir)
    (hinner : folders.Pairwise fun inner outer =>
      outer.length < inner.length)
    (tree : FileTree N)
    (hdone : ∀ spelled, root <+: spelled → spelled ≠ root →
      spelled <+: normpath dir → spelled ∉ folders → NoFolder tree spelled) :
    Pruned root dir clutter tree (pruneFolders clutter folders tree) := by
  induction folders generalizing tree with
  | nil => exact Reduced.refl tree
  | cons spelled outer ih =>
      have houter := fun other hother =>
        hfolders other (List.mem_cons_of_mem _ hother)
      obtain ⟨hroot, hne, hway⟩ := hfolders spelled List.mem_cons_self
      obtain ⟨hlonger, hrest⟩ := List.pairwise_cons.mp hinner
      have hnext : ∀ next, Shrinks next tree → NoFolder next spelled →
          Pruned root dir clutter next
            (pruneFolders clutter outer next) := by
        intro next hshrinks hnone
        refine ih houter hrest next fun other hr hn hw hnot => ?_
        by_cases hsame : other = spelled
        · rw [hsame]
          exact hnone
        · refine (hdone other hr hn hw ?_).of_shrinks hshrinks
          rw [List.mem_cons, not_or]
          exact ⟨hsame, hnot⟩
      unfold pruneFolders
      split
      · rename_i hresolve
        refine hnext tree (Shrinks.refl tree) fun folder hentry hdirs => ?_
        rw [resolve?_of_entryAt hentry (Or.inr hdirs)] at hresolve
        cases hresolve
      · rename_i folder hresolve
        split
        · rename_i hgo
          simp only [Bool.and_eq_true, decide_eq_true_eq] at hgo
          obtain ⟨⟨hfolder, hentry⟩, hclutter⟩ := hgo
          refine Pruned.trans (rmtree_pruned hroot hne hway hentry hfolder
            hclutter fun n hpre => ?_)
            (hnext _ (tree.restrict_shrinks _) fun found hfound => ?_)
          · refine hdone _ (hroot.trans (List.prefix_append _ _))
              (concat_ne_of_length hroot.length_le) hpre fun hmem => ?_
            rcases List.mem_cons.mp hmem with hsame | hmem
            · exact concat_ne_of_length (Nat.le_refl _) hsame
            · exact concat_ne_of_length (hlonger _ hmem).le rfl
          · have hbefore := (tree.restrict_shrinks _).entryAt hfound
            rw [hentry] at hbefore
            obtain rfl := Option.some.inj hbefore
            exact tree.not_mem_rmtree_dirs folder
        · exact Reduced.refl tree

/-- Pruning removes folders on the way that hold only clutter, and nothing
else. -/
theorem pruneDirs_pruned (root : Location N) (dir : RawPath N)
    (clutter : N → Bool) (tree : FileTree N) :
    Pruned root dir clutter tree (pruneDirs root dir clutter tree) := by
  have hmem : ∀ spelled, spelled ∈
      ancestry (normpath dir) ++ [normpath dir] ↔ spelled <+: normpath dir := by
    intro spelled
    rw [List.mem_append, List.mem_singleton, mem_ancestry_iff]
    constructor
    · rintro (habove | rfl)
      · exact habove.1
      · exact List.prefix_rfl
    · intro hpre
      by_cases hsame : spelled = normpath dir
      · exact Or.inr hsame
      · exact Or.inl ⟨hpre, hsame⟩
  apply pruneFolders_pruned
  · intro spelled hspelled
    simp only [List.mem_reverse, List.mem_filter, hmem, Bool.and_eq_true,
      decide_eq_true_eq] at hspelled
    exact ⟨hspelled.2.1, hspelled.2.2, hspelled.1⟩
  · rw [List.pairwise_reverse]
    exact (pairwise_ancestry_concat _).filter _
  · intro spelled hroot hne hway hnot
    refine absurd ?_ hnot
    simp only [List.mem_reverse, List.mem_filter, hmem, Bool.and_eq_true,
      decide_eq_true_eq]
    exact ⟨hway, hroot, hne⟩

end FileTree
