/-
A file system with directory links.  Entries are named by their physical
location, one with no link on the way to it; a link is recorded with the
physical location it finally leads to.  Opening a path follows every link on
the way, removing one follows all but the last component, and lexical
normalisation follows none.
-/
import Mathlib.Data.List.Nodup
import Beetkeeper.LexicalPath

open LexicalPath

universe u

/-- Regular files, directories and directory links.  The root directory is
always there; any other location holds at most one entry, and no file,
directory or link target lies at or below a link. -/
structure FileTree (N : Type u) where
  files : List (Location N)
  dirs : List (Location N)
  links : List (Location N × Location N)
  entries_nodup : (files ++ dirs ++ links.map Prod.fst).Nodup
  rooted : [] ∉ files ++ dirs ++ links.map Prod.fst
  physical : ∀ link ∈ links,
    ∀ location ∈ files ++ dirs ++ links.map Prod.snd, ¬ link.1 <+: location

namespace FileTree

variable {N : Type u} [DecidableEq N]

/-- Where the link at a location leads, when it holds one. -/
def link? (tree : FileTree N) (location : Location N) :
    Option (Location N) :=
  (tree.links.find? fun link => decide (link.1 = location)).map Prod.snd

def isDir (tree : FileTree N) (location : Location N) : Bool :=
  decide (location = []) || decide (location ∈ tree.dirs)

def isFile (tree : FileTree N) (location : Location N) : Bool :=
  decide (location ∈ tree.files)

/-- Whether a file, a directory or a link is at a location. -/
def occupied (tree : FileTree N) (location : Location N) : Bool :=
  tree.isFile location || tree.isDir location ||
    (tree.link? location).isSome

/-- Walk one component, through the link it names if it names one. -/
def follow (tree : FileTree N) (current : Location N) :
    Segment N → Location N
  | .name n => (tree.link? (current ++ [n])).getD (current ++ [n])
  | segment => push current segment

/-- The location a path leads to, whether or not anything is there. -/
def realpath (tree : FileTree N) (raw : RawPath N) : Location N :=
  raw.foldl tree.follow []

/-- One component of a lookup: what is walked through must be a directory and
what is reached must exist. -/
def enter? (tree : FileTree N) (current : Location N) (segment : Segment N) :
    Option (Location N) :=
  let next := tree.follow current segment
  if tree.isDir current && (tree.isFile next || tree.isDir next) then
    some next
  else none

/-- The existing location a path leads to. -/
def resolve? (tree : FileTree N) (raw : RawPath N) : Option (Location N) :=
  raw.foldlM tree.enter? []

def pathExists (tree : FileTree N) (raw : RawPath N) : Bool :=
  (tree.resolve? raw).isSome

def pathIsDir (tree : FileTree N) (raw : RawPath N) : Bool :=
  (tree.resolve? raw).any tree.isDir

/-- The directory entry a path names: links are followed up to its parent,
and its last component is looked up there without being followed. -/
def entryAt (tree : FileTree N) (raw : RawPath N) : Option (Location N) :=
  match raw.getLast? with
  | some (.name n) =>
      (tree.resolve? raw.dropLast).bind fun parent =>
        if tree.isDir parent then some (parent ++ [n]) else none
  | _ => none

omit [DecidableEq N] in
theorem restrict_sublist (tree : FileTree N) (keep : Location N → Bool) :
    (tree.files.filter keep ++ tree.dirs.filter keep ++
      (tree.links.filter fun link => keep link.1).map Prod.fst).Sublist
    (tree.files ++ tree.dirs ++ tree.links.map Prod.fst) := by
  apply List.Sublist.append
  · exact List.filter_sublist.append List.filter_sublist
  · exact List.filter_sublist.map Prod.fst

/-- Keep only the entries at some locations. -/
def restrict (tree : FileTree N) (keep : Location N → Bool) : FileTree N where
  files := tree.files.filter keep
  dirs := tree.dirs.filter keep
  links := tree.links.filter fun link => keep link.1
  entries_nodup := tree.entries_nodup.sublist (tree.restrict_sublist keep)
  rooted := fun hroot =>
    tree.rooted ((tree.restrict_sublist keep).subset hroot)
  physical := by
    intro link hlink location hlocation
    refine tree.physical link (List.mem_of_mem_filter hlink) location ?_
    simp only [List.mem_append, List.mem_map] at hlocation ⊢
    rcases hlocation with (hfile | hdir) | ⟨other, hother, htarget⟩
    · exact Or.inl (Or.inl (List.mem_of_mem_filter hfile))
    · exact Or.inl (Or.inr (List.mem_of_mem_filter hdir))
    · exact Or.inr ⟨other, List.mem_of_mem_filter hother, htarget⟩

def erase (tree : FileTree N) (location : Location N) : FileTree N :=
  tree.restrict fun other => decide (other ≠ location)

/-- Remove the regular file or link a path names; `none` when it names
neither. -/
def remove? (tree : FileTree N) (raw : RawPath N) : Option (FileTree N) :=
  (tree.entryAt raw).bind fun location =>
    if tree.isFile location || (tree.link? location).isSome then
      some (tree.erase location)
    else none

@[simp] theorem isFile_iff {tree : FileTree N} {location : Location N} :
    tree.isFile location = true ↔ location ∈ tree.files := by
  simp [isFile]

@[simp] theorem isDir_iff {tree : FileTree N} {location : Location N} :
    tree.isDir location = true ↔ location = [] ∨ location ∈ tree.dirs := by
  simp [isDir]

theorem link?_eq_some_iff {tree : FileTree N} {location target : Location N} :
    tree.link? location = some target ↔ (location, target) ∈ tree.links := by
  have hkeys : (tree.links.map Prod.fst).Nodup :=
    (List.nodup_append.mp tree.entries_nodup).2.1
  simp only [link?, Option.map_eq_some_iff]
  constructor
  · rintro ⟨⟨source, target⟩, hfind, rfl⟩
    have hsource : source = location := by
      simpa using List.find?_some hfind
    subst hsource
    exact List.mem_of_find?_eq_some hfind
  · intro hmem
    cases hfind : tree.links.find? fun link => decide (link.1 = location) with
    | none => simpa using List.find?_eq_none.mp hfind _ hmem
    | some link =>
        refine ⟨link, rfl, ?_⟩
        have hsource : link.1 = location := by
          simpa using List.find?_some hfind
        have hlinks : tree.links.Nodup := List.Nodup.of_map _ hkeys
        have hsame := (List.nodup_map_iff_inj_on hlinks).mp hkeys
          link (List.mem_of_find?_eq_some hfind) _ hmem hsource
        rw [hsame]

/-- A location that holds a link holds no file and no directory. -/
theorem not_mem_of_link? {tree : FileTree N} {location target : Location N}
    (hlink : tree.link? location = some target) :
    location ∉ tree.files ∧ location ∉ tree.dirs := by
  have hkey : location ∈ tree.links.map Prod.fst :=
    List.mem_map.mpr ⟨_, link?_eq_some_iff.mp hlink, rfl⟩
  have hdisjoint := (List.nodup_append.mp tree.entries_nodup).2.2
  constructor
  · intro hfile
    exact hdisjoint _ (List.mem_append_left _ hfile) _ hkey rfl
  · intro hdir
    exact hdisjoint _ (List.mem_append_right _ hdir) _ hkey rfl

theorem link?_isSome_iff {tree : FileTree N} {location : Location N} :
    (tree.link? location).isSome = true ↔
      ∃ target, (location, target) ∈ tree.links := by
  rw [Option.isSome_iff_exists]
  exact exists_congr fun _ => link?_eq_some_iff

@[simp] theorem occupied_iff {tree : FileTree N} {location : Location N} :
    tree.occupied location = true ↔ location ∈ tree.files ∨
      (location = [] ∨ location ∈ tree.dirs) ∨
      ∃ target, (location, target) ∈ tree.links := by
  simp only [occupied, Bool.or_eq_true, isFile_iff, isDir_iff,
    link?_isSome_iff, or_assoc]

omit [DecidableEq N] in
/-- A file is not a directory. -/
theorem not_mem_dirs_of_mem_files {tree : FileTree N} {location : Location N}
    (hfile : location ∈ tree.files) : location ∉ tree.dirs := by
  intro hdir
  have hnodup := (List.nodup_append.mp tree.entries_nodup).1
  exact (List.nodup_append.mp hnodup).2.2 _ hfile _ hdir rfl

/-- One component of a successful lookup. -/
theorem enter?_eq_some_iff {tree : FileTree N} {current next : Location N}
    {segment : Segment N} :
    tree.enter? current segment = some next ↔
      tree.isDir current = true ∧
        (next ∈ tree.files ∨ tree.isDir next = true) ∧
        tree.follow current segment = next := by
  simp only [enter?, Bool.and_eq_true, Bool.or_eq_true, isFile_iff,
    Option.ite_none_right_eq_some, Option.some.injEq]
  constructor
  · rintro ⟨⟨hcurrent, hreached⟩, rfl⟩
    exact ⟨hcurrent, hreached, rfl⟩
  · rintro ⟨hcurrent, hreached, rfl⟩
    exact ⟨⟨hcurrent, hreached⟩, rfl⟩

theorem foldl_follow_of_foldlM {tree : FileTree N} {current final : Location N}
    {raw : RawPath N} (hresolve : raw.foldlM tree.enter? current = some final) :
    raw.foldl tree.follow current = final := by
  induction raw generalizing current with
  | nil => exact Option.some.inj hresolve
  | cons segment rest ih =>
      simp only [List.foldlM_cons, Option.bind_eq_bind,
        Option.bind_eq_some_iff] at hresolve
      obtain ⟨next, henter, hrest⟩ := hresolve
      obtain ⟨_, _, rfl⟩ := enter?_eq_some_iff.mp henter
      exact ih hrest

/-- What a lookup reaches is where the path leads. -/
theorem realpath_of_resolve? {tree : FileTree N} {raw : RawPath N}
    {location : Location N} (hresolve : tree.resolve? raw = some location) :
    tree.realpath raw = location :=
  foldl_follow_of_foldlM hresolve

/-- Looking a path up is looking its last component up where the rest of it
leads. -/
theorem resolve?_concat {tree : FileTree N} {raw : RawPath N}
    {segment : Segment N} {location : Location N} :
    tree.resolve? (raw ++ [segment]) = some location ↔
      ∃ parent, tree.resolve? raw = some parent ∧
        tree.enter? parent segment = some location := by
  simp only [resolve?, List.foldlM_append, Option.bind_eq_bind,
    Option.bind_eq_some_iff]
  refine exists_congr fun parent => and_congr_right fun _ => ?_
  simp [List.foldlM_cons]

/-- What a lookup reaches exists. -/
theorem exists_of_resolve? {tree : FileTree N} {raw : RawPath N}
    {location : Location N} (hresolve : tree.resolve? raw = some location) :
    location ∈ tree.files ∨ tree.isDir location = true := by
  rcases List.eq_nil_or_concat raw with rfl | ⟨rest, segment, rfl⟩
  · obtain rfl := Option.some.inj hresolve
    exact Or.inr (isDir_iff.mpr (Or.inl rfl))
  · rw [List.concat_eq_append, resolve?_concat] at hresolve
    obtain ⟨parent, _, henter⟩ := hresolve
    exact (enter?_eq_some_iff.mp henter).2.1

theorem entryAt_concat {tree : FileTree N} {raw : RawPath N} {n : N}
    {location : Location N} :
    tree.entryAt (raw ++ [.name n]) = some location ↔
      ∃ parent, tree.resolve? raw = some parent ∧
        tree.isDir parent = true ∧ parent ++ [n] = location := by
  simp only [entryAt, List.getLast?_append, List.getLast?_singleton,
    Option.some_or, List.dropLast_concat, Option.bind_eq_some_iff,
    Option.ite_none_right_eq_some, Option.some.injEq]

/-- A path that names an entry ends in a name. -/
theorem entryAt_eq_some {tree : FileTree N} {raw : RawPath N}
    {location : Location N} (hentry : tree.entryAt raw = some location) :
    ∃ rest n, raw = rest ++ [.name n] := by
  rcases List.eq_nil_or_concat raw with rfl | ⟨rest, segment, rfl⟩
  · simp [entryAt] at hentry
  · rw [List.concat_eq_append] at hentry ⊢
    cases segment with
    | name n => exact ⟨rest, n, rfl⟩
    | here => simp [entryAt] at hentry
    | up => simp [entryAt] at hentry

/-- A path that names a file or a directory leads to it. -/
theorem resolve?_of_entryAt {tree : FileTree N} {raw : RawPath N}
    {location : Location N} (hentry : tree.entryAt raw = some location)
    (hkind : location ∈ tree.files ∨ location ∈ tree.dirs) :
    tree.resolve? raw = some location := by
  obtain ⟨rest, n, rfl⟩ := entryAt_eq_some hentry
  obtain ⟨parent, hparent, hdir, rfl⟩ := entryAt_concat.mp hentry
  refine resolve?_concat.mpr ⟨parent, hparent, enter?_eq_some_iff.mpr
    ⟨hdir, hkind.imp_right fun h => isDir_iff.mpr (Or.inr h), ?_⟩⟩
  cases hlink : tree.link? (parent ++ [n]) with
  | none => simp [follow, hlink]
  | some target =>
      obtain ⟨hfile, hfolder⟩ := not_mem_of_link? hlink
      exact (hkind.elim hfile hfolder).elim

section NoLinks

variable {tree : FileTree N}

theorem follow_of_links_nil (hlinks : tree.links = []) :
    tree.follow = push := by
  funext current segment
  cases segment with
  | here => rfl
  | up => rfl
  | name n => simp [follow, link?, hlinks, push]

/-- Without links a path leads where its normal form says. -/
theorem realpath_of_links_nil (hlinks : tree.links = []) (raw : RawPath N) :
    tree.realpath raw = normpath raw := by
  rw [realpath, follow_of_links_nil hlinks, normpath]

theorem resolve?_of_links_nil (hlinks : tree.links = []) {raw : RawPath N}
    {location : Location N} (hresolve : tree.resolve? raw = some location) :
    location = normpath raw := by
  rw [← realpath_of_resolve? hresolve, realpath_of_links_nil hlinks]

theorem entryAt_of_links_nil (hlinks : tree.links = []) {raw : RawPath N}
    {location : Location N} (hentry : tree.entryAt raw = some location) :
    location = normpath raw := by
  obtain ⟨rest, n, rfl⟩ := entryAt_eq_some hentry
  obtain ⟨parent, hresolve, _, rfl⟩ := entryAt_concat.mp hentry
  rw [resolve?_of_links_nil hlinks hresolve]
  simp [normpath, push]

end NoLinks

/-- `smaller` was obtained from `larger` by removing entries. -/
structure Shrinks (smaller larger : FileTree N) : Prop where
  files : ∀ location ∈ smaller.files, location ∈ larger.files
  dirs : ∀ location ∈ smaller.dirs, location ∈ larger.dirs
  links : ∀ link ∈ smaller.links, link ∈ larger.links

namespace Shrinks

omit [DecidableEq N] in
theorem refl (tree : FileTree N) : Shrinks tree tree :=
  ⟨fun _ h => h, fun _ h => h, fun _ h => h⟩

omit [DecidableEq N] in
theorem trans {first second third : FileTree N} (h₁ : Shrinks first second)
    (h₂ : Shrinks second third) : Shrinks first third :=
  ⟨fun l h => h₂.files l (h₁.files l h), fun l h => h₂.dirs l (h₁.dirs l h),
    fun l h => h₂.links l (h₁.links l h)⟩

theorem isDir {smaller larger : FileTree N} (hshrinks : Shrinks smaller larger)
    {location : Location N} (hdir : smaller.isDir location = true) :
    larger.isDir location = true := by
  rw [isDir_iff] at hdir ⊢
  exact hdir.imp_right (hshrinks.dirs location)

/-- A lookup step that succeeds after removals led to the same location
before them: had a link been removed, nothing would be left to reach. -/
theorem enter? {smaller larger : FileTree N} (hshrinks : Shrinks smaller larger)
    {current next : Location N} {segment : Segment N}
    (henter : smaller.enter? current segment = some next) :
    larger.enter? current segment = some next := by
  obtain ⟨hcurrent, hreached, hnext⟩ := enter?_eq_some_iff.mp henter
  have hthere : next ∈ larger.files ∨ larger.isDir next = true :=
    hreached.imp (hshrinks.files next) hshrinks.isDir
  refine enter?_eq_some_iff.mpr ⟨hshrinks.isDir hcurrent, hthere, ?_⟩
  cases segment with
  | here => exact hnext
  | up => exact hnext
  | name n =>
      simp only [follow] at hnext ⊢
      cases hlink : smaller.link? (current ++ [n]) with
      | some target =>
          have hlarge := link?_eq_some_iff.mpr
            (hshrinks.links _ (link?_eq_some_iff.mp hlink))
          rw [hlink] at hnext
          rw [hlarge]
          exact hnext
      | none =>
          rw [hlink, Option.getD_none] at hnext
          cases hlarge : larger.link? (current ++ [n]) with
          | none => exact hnext
          | some target =>
              obtain ⟨hfile, hdir⟩ := not_mem_of_link? hlarge
              rw [hnext] at hfile hdir
              rcases hthere with hthere | hthere
              · exact absurd hthere hfile
              · rcases isDir_iff.mp hthere with hroot | hthere
                · rw [hroot] at hnext
                  simp at hnext
                · exact absurd hthere hdir

theorem foldlM_enter? {smaller larger : FileTree N}
    (hshrinks : Shrinks smaller larger) {current final : Location N}
    {raw : RawPath N}
    (hresolve : raw.foldlM smaller.enter? current = some final) :
    raw.foldlM larger.enter? current = some final := by
  induction raw generalizing current with
  | nil => exact hresolve
  | cons segment rest ih =>
      simp only [List.foldlM_cons, Option.bind_eq_bind,
        Option.bind_eq_some_iff] at hresolve ⊢
      obtain ⟨next, henter, hrest⟩ := hresolve
      exact ⟨next, hshrinks.enter? henter, ih hrest⟩

theorem resolve? {smaller larger : FileTree N}
    (hshrinks : Shrinks smaller larger) {raw : RawPath N}
    {location : Location N} (hresolve : smaller.resolve? raw = some location) :
    larger.resolve? raw = some location :=
  hshrinks.foldlM_enter? hresolve

/-- The entry a path names is the same before and after removals, as long as
it still names one. -/
theorem entryAt {smaller larger : FileTree N}
    (hshrinks : Shrinks smaller larger)
    {raw : RawPath N} {location : Location N}
    (hentry : smaller.entryAt raw = some location) :
    larger.entryAt raw = some location := by
  unfold FileTree.entryAt at hentry ⊢
  split at hentry
  · simp only [Option.bind_eq_some_iff, Option.ite_none_right_eq_some]
      at hentry ⊢
    obtain ⟨parent, hresolve, hdir, hlocation⟩ := hentry
    exact ⟨parent, hshrinks.resolve? hresolve, hshrinks.isDir hdir, hlocation⟩
  · simp at hentry

end Shrinks

omit [DecidableEq N] in
theorem restrict_shrinks (tree : FileTree N) (keep : Location N → Bool) :
    Shrinks (tree.restrict keep) tree :=
  ⟨fun _ h => List.mem_of_mem_filter h, fun _ h => List.mem_of_mem_filter h,
    fun _ h => List.mem_of_mem_filter h⟩

theorem occupied_restrict {tree : FileTree N} {keep : Location N → Bool}
    {location : Location N} :
    (tree.restrict keep).occupied location = true ↔ location = [] ∨
      (tree.occupied location = true ∧ keep location = true) := by
  simp only [occupied_iff, restrict, List.mem_filter]
  constructor
  · rintro (⟨hfile, hkeep⟩ | (hroot | ⟨hdir, hkeep⟩) | ⟨target, hlink, hkeep⟩)
    · exact Or.inr ⟨Or.inl hfile, hkeep⟩
    · exact Or.inl hroot
    · exact Or.inr ⟨Or.inr (Or.inl (Or.inr hdir)), hkeep⟩
    · exact Or.inr ⟨Or.inr (Or.inr ⟨target, hlink⟩), hkeep⟩
  · rintro (hroot | ⟨hfile | (hroot | hdir) | ⟨target, hlink⟩, hkeep⟩)
    · exact Or.inr (Or.inl (Or.inl hroot))
    · exact Or.inl ⟨hfile, hkeep⟩
    · exact Or.inr (Or.inl (Or.inl hroot))
    · exact Or.inr (Or.inl (Or.inr ⟨hdir, hkeep⟩))
    · exact Or.inr (Or.inr ⟨target, hlink, hkeep⟩)

theorem remove?_eq_some_iff {tree next : FileTree N} {raw : RawPath N} :
    tree.remove? raw = some next ↔
      ∃ location, tree.entryAt raw = some location ∧
        (location ∈ tree.files ∨ ∃ target, (location, target) ∈ tree.links) ∧
        tree.erase location = next := by
  simp only [remove?, Option.bind_eq_some_iff, Bool.or_eq_true, isFile_iff,
    link?_isSome_iff, Option.ite_none_right_eq_some, Option.some.injEq]

omit [DecidableEq N] in
theorem spell_concat (names : Location N) (n : N) :
    spell (names ++ [n]) = spell names ++ [.name n] := by
  simp [spell]

/-- A path that leads to a file ends in a name. -/
theorem exists_concat_of_file {tree : FileTree N} {names file : Location N}
    (hresolve : tree.resolve? (spell names) = some file)
    (hfile : file ∈ tree.files) : ∃ rest n, names = rest ++ [n] := by
  rcases List.eq_nil_or_concat names with rfl | ⟨rest, n, rfl⟩
  · obtain rfl := Option.some.inj hresolve
    exact absurd (List.mem_append_left _ (List.mem_append_left _ hfile))
      tree.rooted
  · exact ⟨rest, n, by rw [List.concat_eq_append]⟩

/-- A path that leads to a file names that file or a link to it. -/
theorem entryAt_of_file {tree : FileTree N} {names file : Location N}
    (hresolve : tree.resolve? (spell names) = some file)
    (hfile : file ∈ tree.files) :
    ∃ entry, tree.entryAt (spell names) = some entry ∧
      (entry = file ∨ (entry, file) ∈ tree.links) := by
  obtain ⟨rest, n, rfl⟩ := exists_concat_of_file hresolve hfile
  rw [spell_concat] at hresolve ⊢
  obtain ⟨parent, hparent, henter⟩ := resolve?_concat.mp hresolve
  obtain ⟨hdir, _, hfollow⟩ := enter?_eq_some_iff.mp henter
  refine ⟨parent ++ [n], entryAt_concat.mpr ⟨parent, hparent, hdir, rfl⟩, ?_⟩
  cases hlink : tree.link? (parent ++ [n]) with
  | none => exact Or.inl (by simpa [follow, hlink] using hfollow)
  | some target =>
      obtain rfl : target = file := by simpa [follow, hlink] using hfollow
      exact Or.inr (link?_eq_some_iff.mp hlink)

/-- A path that leads to a file can be removed. -/
theorem exists_remove?_of_file {tree : FileTree N} {names file : Location N}
    (hresolve : tree.resolve? (spell names) = some file)
    (hfile : file ∈ tree.files) :
    ∃ next, tree.remove? (spell names) = some next := by
  obtain ⟨entry, hentry, hkind⟩ := entryAt_of_file hresolve hfile
  refine ⟨_, remove?_eq_some_iff.mpr ⟨entry, hentry, ?_, rfl⟩⟩
  rcases hkind with rfl | hlink
  · exact Or.inl hfile
  · exact Or.inr ⟨file, hlink⟩

end FileTree
