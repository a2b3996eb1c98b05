/-
The beets library and the disk it manages, as the clean-slate code uses them:
the rows with the columns that are read, the files as a tree, and what an
audio reader makes of a file.  What is beets' own or the operating system's is
a parameter with the facts the code relies on.
-/
import Beetkeeper.KeyedTable
import Beetkeeper.FileRemoval
import Beetkeeper.ImportJobs

namespace Beetkeeper

open LexicalPath

/-- A path as the previews and the job output show it. -/
def displayPath (path : OsPath) : String :=
  "/" ++ "/".intercalate (path.map fun
    | .here => "."
    | .up => ".."
    | .name n => n)

def displayLocation (location : Location String) : String :=
  displayPath (spell location)

/-- The flexible attributes of a row, in the text of their values. -/
abbrev FlexAttributes := List (String × Option String)

/-- A row of the items table.  `stamp` tells it from a later row under the
same id; it is history only and no code reads it. -/
structure Item where
  id : Nat
  path : OsPath
  albumId : Option Nat
  artist : String
  title : String
  tracktotal : Nat
  disctotal : Nat
  disc : Nat
  flex : FlexAttributes
  stamp : Nat
deriving Repr, DecidableEq

/-- A row of the albums table, with a `stamp` as items have. -/
structure Album where
  id : Nat
  albumartist : String
  album : String
  artpath : Option OsPath
  flex : FlexAttributes
  stamp : Nat
deriving Repr, DecidableEq

structure Library where
  /-- the beets directory, normalised -/
  directory : Location String
  albums : KeyedTable Album Album.id
  items : KeyedTable Item Item.id

/-- The tags `Item.from_path` reads, as far as the scan of a source uses
them. -/
structure MediaTags where
  albumartist : String
  artist : String
  album : String
deriving Repr, DecidableEq

/-- `media` is what an audio reader makes of the file at a location. -/
structure BeetsWorld where
  library : Library
  tree : FileTree String
  media : Location String → Option MediaTags

/-- `Item.from_path`; `none` is a `ReadError`. -/
def BeetsWorld.fromPath (world : BeetsWorld) (path : Location String) :
    Option MediaTags :=
  (world.tree.resolve? (spell path)).bind fun location =>
    if world.tree.isFile location then world.media location else none

/-- What comes from beets and the operating system. -/
structure Beets where
  /-- `config["per_disc_numbering"]` -/
  perDiscNumbering : Bool
  /-- `config["clutter"]` -/
  clutter : List String
  /-- the order `album.items()` returns rows in -/
  sortItems : List Item → List Item
  sortItems_perm : ∀ items, (sortItems items).Perm items
  /-- the files of each album folder, `albums_in_dir` -/
  albumsInDir : FileTree String → Location String →
    List (List (Location String))
  /-- a walk lists a file once -/
  albumsInDir_nodup : ∀ tree dir, (albumsInDir tree dir).flatten.Nodup
  albumsInDir_below : ∀ tree dir, ∀ file ∈ (albumsInDir tree dir).flatten,
    dir <+: file
  fnmatch : String → String → Bool
  /-- why the operating system refuses to remove a file, if it does -/
  refuses : FileTree String → OsPath → Option String
  /-- `util.prune_dirs(dir, root, clutter)` -/
  pruneDirs : FileTree String → OsPath → Location String → List String →
    FileTree String
  pruneDirs_pruned : ∀ tree dir root patterns,
    FileTree.Pruned root dir (fun name => patterns.any (fnmatch name)) tree
      (pruneDirs tree dir root patterns)

/-- The names pruning takes for clutter. -/
def Beets.isClutter (beets : Beets) (name : String) : Bool :=
  beets.clutter.any (beets.fnmatch name)

/-- `lib.get_album(id)`. -/
def Library.getAlbum (library : Library) (id : Nat) : Option Album :=
  library.albums.get? id

/-- `lib.get_item(id)`. -/
def Library.getItem (library : Library) (id : Nat) : Option Item :=
  library.items.get? id

/-- `album.items()`. -/
def Library.itemsOf (library : Library) (beets : Beets) (album : Album) :
    List Item :=
  beets.sortItems
    (library.items.rows.filter fun item => item.albumId == some album.id)

@[simp] theorem Library.mem_itemsOf {library : Library} {beets : Beets}
    {album : Album} {item : Item} :
    item ∈ library.itemsOf beets album ↔
      item ∈ library.items.rows ∧ item.albumId = some album.id := by
  simp [Library.itemsOf, (beets.sortItems_perm _).mem_iff]

def Library.dropItem (library : Library) (id : Nat) : Library :=
  { library with items := library.items.delete id }

def Library.dropAlbum (library : Library) (id : Nat) : Library :=
  { library with albums := library.albums.delete id }

/-- The failure of a file deletion, `FilesystemError`. -/
structure FilesystemError where
  reason : String
deriving Repr, DecidableEq

/-- `util.remove`, which does not mind a file that is gone. -/
def Beets.removeFile (beets : Beets) (tree : FileTree String)
    (path : OsPath) : Except FilesystemError (FileTree String) :=
  if tree.pathExists path then
    match beets.refuses tree path with
    | some reason => .error ⟨reason⟩
    | none =>
        match tree.remove? path with
        | some tree => .ok tree
        | none => .error ⟨"Is a directory"⟩
  else .ok tree

/-- A file goes, and then the folders that hold nothing but clutter without
it. -/
def Beets.deleteFile (beets : Beets) (root : Location String)
    (tree : FileTree String) (path : OsPath) :
    Except FilesystemError (FileTree String) :=
  (beets.removeFile tree path).map fun tree =>
    beets.pruneDirs tree path.dropLast root beets.clutter

/-- `item.remove(delete, with_album=False)`: the row goes first, and pruning
goes by `config["clutter"]` as it does for the art. -/
def Beets.removeItem (beets : Beets) (world : BeetsWorld) (item : Item)
    (delete : Bool) : BeetsWorld × Except FilesystemError Unit :=
  let world := { world with library := world.library.dropItem item.id }
  if delete then
    match beets.deleteFile world.library.directory world.tree item.path with
    | .ok tree => ({ world with tree := tree }, .ok ())
    | .error failure => (world, .error failure)
  else (world, .ok ())

end Beetkeeper
