/-
The paths typed on the import page: which folders are listed while one is
typed, what is suggested from them, and which paths an import is started for.
-/
import Beetkeeper.PosixPath
import Beetkeeper.FileTree
import Beetkeeper.ImportSubmission

namespace Beetkeeper

open PosixPath PathAlphabet LexicalPath PyText Utf8

/-- A text as it arrives in a request. -/
def ofChars (text : List Char) : Text := text.map .scalar

/-- `_under_import_root`. -/
def underImportRoot (path : List Char) (importRoot : PurePath CodePoint) :
    Bool :=
  let root := PosixPath.normpath importRoot.text
  let normalized := PosixPath.normpath (ofChars (strip path))
  decide (normalized = root ∨ root ++ [slash] <+: normalized)

/-- `_split_typed_path`. -/
def splitTypedPath (text : List Char) (importRoot : PurePath CodePoint) :
    PurePath CodePoint × Text :=
  let root := PosixPath.normpath importRoot.text
  if text.getLast? = some '/' then (.ofText (ofChars text), [])
  else if PosixPath.normpath (ofChars text) = root then (.ofText root, [])
  else
    let typed := PurePath.ofText (ofChars text)
    (typed.parent, typed.name)

/-- The folder `_dir_suggestions` lists for a text, if it lists one, and the
beginning of the names it looks for. -/
def listed? (rawPath : List Char) (importRoot : PurePath CodePoint) :
    Option (PurePath CodePoint × Text) :=
  let text := strip rawPath
  if underImportRoot text importRoot then
    some (splitTypedPath text importRoot)
  else none

example : listed? " /downloads/New/../Al".toList
    (.ofText (Utf8.ofString "/downloads")) =
      some (.ofText (Utf8.ofString "/downloads/New/.."),
        Utf8.ofString "Al") := by decide

/-- A file system without links, as a process of the server sees it.
`scandir` lists the names in a directory in any order, or fails. -/
structure ServedFiles where
  tree : FileTree (Name CodePoint)
  links_nil : tree.links = []
  cwd : Location (Name CodePoint)
  scandir : Location (Name CodePoint) → Option (List (Name CodePoint))
  scandir_nodup : ∀ folder, ∀ names ∈ scandir folder, names.Nodup
  mem_scandir : ∀ folder, ∀ names ∈ scandir folder, ∀ n,
    n ∈ names ↔ tree.occupied (folder ++ [n]) = true

inductive ListError where
  | osError
  | valueError (message : String)
deriving Repr, DecidableEq

namespace ServedFiles

/-- The components of a path from the root directory. -/
def raw (files : ServedFiles) (path : PurePath CodePoint) :
    RawPath (Name CodePoint) :=
  if path.root = .relative then spell files.cwd ++ path.segments
  else path.segments

/-- `Path.is_dir`. -/
def isDir (files : ServedFiles) (path : PurePath CodePoint) : Bool :=
  files.tree.pathIsDir (files.raw path)

/-- `Path.iterdir`. -/
def iterdir (files : ServedFiles) (folder : PurePath CodePoint) :
    Except ListError (List (PurePath CodePoint)) :=
  if .scalar (Char.ofNat 0) ∈ folder.text then
    .error (.valueError "scandir: embedded null character in path")
  else
    let names? := (files.tree.resolve? (files.raw folder)).bind fun location =>
      if files.tree.isDir location then files.scandir location else none
    match names? with
    | none => .error .osError
    | some names => .ok (names.map fun n => folder.extend [n.val])

end ServedFiles

/-- The number of a code point. -/
def codePoint : CodePoint → Nat
  | .scalar c => c.toNat
  | .surrogate code => 0xd800 + code

/-- Python's order of texts. -/
def textLe (first second : Text) : Bool :=
  !(second.map codePoint).lex (first.map codePoint)

def maxPathSuggestions : Nat := 25

def maxDirScan : Nat := 500

/-- `_dir_suggestions`; `lower` is `str.lower`. -/
def dirSuggestions (files : ServedFiles) (lower : Text → Text)
    (rawPath : List Char) (importRoot : PurePath CodePoint) :
    Except String (List Text) :=
  match listed? rawPath importRoot with
  | none => .ok []
  | some (parent, leaf) =>
      match files.iterdir parent with
      | .error .osError => .ok []
      | .error (.valueError message) => .error message
      | .ok children =>
          let found := (children.take maxDirScan).filter fun child =>
            (lower leaf).isPrefixOf (lower child.name) && files.isDir child
          .ok (((found.map PurePath.text).mergeSort textLe).take
            maxPathSuggestions)

/-- An answer that refuses a request. -/
structure Refusal where
  code : Nat
  detail : Text
deriving Repr, DecidableEq

/-- The components of a typed text, as an import job keeps its path. -/
def osPath (text : List Char) : OsPath :=
  (PurePath.ofText (ofChars text)).segments.map fun
    | .here => .here
    | .up => .up
    | .name n => .name (String.ofList ((Utf8.scalars? n.val.val).getD []))

/-- `import_submit`, of a path as it was typed. -/
def importSubmitTyped (importRoot : PurePath CodePoint) (path : List Char)
    (form : ImportForm) : Except Refusal JobSettings :=
  let cleaned := strip path
  if cleaned = [] then
    .error ⟨422, Utf8.ofString "Provide a path to import."⟩
  else if !underImportRoot cleaned importRoot then
    .error ⟨422, Utf8.ofString "Import path must be under " ++
      importRoot.text ++ Utf8.ofString "."⟩
  else
    (importSubmit (osPath cleaned) form).mapError fun refusal =>
      ⟨refusal.code, Utf8.ofString refusal.detail⟩

/-- The import root, or a path below it. -/
structure UnderRoot (importRoot path : PurePath CodePoint) : Prop where
  absolute : path.root ≠ .relative
  inside : importRoot.location <+: path.location

section Containment

variable {importRoot : PurePath CodePoint}

theorem normpath_text (path : PurePath CodePoint) :
    PosixPath.normpath path.text = path.normalized.text := by
  rw [PosixPath.normpath, PurePath.ofText_text]

/-- The check compares normalised texts, without the blanks around them. -/
theorem underImportRoot_strip_iff {text : List Char} :
    underImportRoot (strip text) importRoot = true ↔
      Continues (PurePath.ofText (ofChars (strip text))).normalized.text
        importRoot.normalized.text := by
  simp only [underImportRoot, strip_strip, decide_eq_true_eq, normpath_text]
  rfl

theorem underRoot_of_underImportRoot (habsolute : importRoot.root ≠ .relative)
    {text : List Char}
    (hunder : underImportRoot (strip text) importRoot = true) :
    UnderRoot importRoot (.ofText (ofChars (strip text))) := by
  obtain ⟨hroot, hinside⟩ := PurePath.location_prefix_of_continues habsolute
    (underImportRoot_strip_iff.mp hunder)
  exact ⟨hroot, hinside⟩

/-- The folder is read off the text as typed, the check off its normal form;
they agree on what is inside. -/
theorem underRoot_of_listed (habsolute : importRoot.root ≠ .relative)
    {rawPath : List Char} {folder : PurePath CodePoint} {leaf : Text}
    (hlisted : listed? rawPath importRoot = some (folder, leaf)) :
    UnderRoot importRoot folder := by
  obtain ⟨hunder, hsplit⟩ := Option.ite_none_right_eq_some.mp hlisted
  have htyped := underRoot_of_underImportRoot habsolute hunder
  have hcontinues := underImportRoot_strip_iff.mp hunder
  rw [Option.some.injEq, splitTypedPath] at hsplit
  split at hsplit
  · cases hsplit
    exact htyped
  · rw [normpath_text] at hsplit
    split at hsplit
    · cases hsplit
      rw [PurePath.ofText_text]
      refine ⟨habsolute, ?_⟩
      rw [PurePath.location_normalized habsolute]
    · rename_i hother
      cases hsplit
      exact ⟨htyped.absolute, PurePath.location_prefix_parent_of_continues
        habsolute hcontinues hother⟩

/-- Without links an absolute path that is a directory is the one its normal
form says. -/
theorem resolve?_of_isDir {files : ServedFiles} {path : PurePath CodePoint}
    (habsolute : path.root ≠ .relative) (hdir : files.isDir path = true) :
    files.tree.resolve? (files.raw path) = some path.location ∧
      files.tree.isDir path.location = true := by
  obtain ⟨location, hresolve, hlocation⟩ :=
    (Option.any_eq_true _ _).mp hdir
  have hraw : files.raw path = path.segments := if_neg habsolute
  have hplace : location = path.location := by
    rw [FileTree.resolve?_of_links_nil files.links_nil hresolve, hraw]
    rfl
  rw [← hplace]
  exact ⟨hresolve, hlocation⟩

theorem child_of_iterdir {files : ServedFiles} {folder : PurePath CodePoint}
    {children : List (PurePath CodePoint)}
    (hlisting : files.iterdir folder = .ok children)
    {child : PurePath CodePoint} (hchild : child ∈ children) :
    ∃ n : Name CodePoint, child = folder.extend [n.val] := by
  simp only [ServedFiles.iterdir] at hlisting
  split at hlisting
  · cases hlisting
  · split at hlisting
    · cases hlisting
    · cases hlisting
      obtain ⟨n, _, rfl⟩ := List.mem_map.mp hchild
      exact ⟨n, rfl⟩

/-- A suggestion is the text of a directory in the folder listed. -/
theorem child_of_mem_dirSuggestions {files : ServedFiles}
    {lower : Text → Text} {rawPath : List Char} {suggestions : List Text}
    (hanswer : dirSuggestions files lower rawPath importRoot =
      .ok suggestions) {suggestion : Text} (hmem : suggestion ∈ suggestions) :
    ∃ folder leaf, ∃ n : Name CodePoint,
      listed? rawPath importRoot = some (folder, leaf) ∧
      suggestion = (folder.extend [n.val]).text ∧
      files.isDir (folder.extend [n.val]) = true := by
  unfold dirSuggestions at hanswer
  split at hanswer
  · cases hanswer
    cases hmem
  · rename_i folder leaf hlisted
    split at hanswer
    · cases hanswer
      cases hmem
    · cases hanswer
    · rename_i children hlisting
      cases hanswer
      have hfound := List.mem_mergeSort.mp (List.mem_of_mem_take hmem)
      obtain ⟨child, hchild, rfl⟩ := List.mem_map.mp hfound
      rw [List.mem_filter, Bool.and_eq_true] at hchild
      obtain ⟨n, rfl⟩ :=
        child_of_iterdir hlisting (List.mem_of_mem_take hchild.1)
      exact ⟨folder, leaf, n, hlisted, rfl, hchild.2.2⟩

theorem importSubmitTyped_eq_ok {path : List Char} {form : ImportForm}
    {settings : JobSettings}
    (haccepted : importSubmitTyped importRoot path form = .ok settings) :
    underImportRoot (strip path) importRoot = true ∧
      importSubmit (osPath (strip path)) form = .ok settings := by
  simp only [importSubmitTyped] at haccepted
  split at haccepted
  · cases haccepted
  · split at haccepted
    · cases haccepted
    · rename_i hunder
      refine ⟨by simpa using hunder, ?_⟩
      cases hsubmit : importSubmit (osPath (strip path)) form with
      | error refusal =>
          rw [hsubmit] at haccepted
          cases haccepted
      | ok submitted =>
          rw [hsubmit] at haccepted
          cases haccepted
          rfl

end Containment

/-- What is typed does not lead out of an absolute import root: not the folder
that is listed, not a directory that is suggested, not the path of an import
that is started. -/
theorem typed_paths_stay_under_root (importRoot : PurePath CodePoint)
    (habsolute : importRoot.root ≠ .relative) :
    (∀ rawPath folder leaf,
      listed? rawPath importRoot = some (folder, leaf) →
      UnderRoot importRoot folder) ∧
    (∀ (files : ServedFiles) lower rawPath suggestions,
      dirSuggestions files lower rawPath importRoot = .ok suggestions →
      ∀ suggestion ∈ suggestions,
        let path := PurePath.ofText suggestion
        UnderRoot importRoot path ∧ path.location ≠ importRoot.location ∧
          files.tree.resolve? (files.raw path) = some path.location ∧
          files.tree.isDir path.location = true) ∧
    (∀ path form settings,
      importSubmitTyped importRoot path form = .ok settings →
      settings.paths = [osPath (strip path)] ∧
        UnderRoot importRoot (.ofText (ofChars (strip path)))) := by
  refine ⟨fun rawPath folder leaf => underRoot_of_listed habsolute, ?_, ?_⟩
  · intro files lower rawPath suggestions hanswer suggestion hmem
    obtain ⟨folder, leaf, n, hlisted, rfl, hdir⟩ :=
      child_of_mem_dirSuggestions hanswer hmem
    obtain ⟨hroot, hinside⟩ := underRoot_of_listed habsolute hlisted
    have hchild := PurePath.location_extend_name folder n
    have habsolute' : (folder.extend [n.val]).root ≠ .relative := hroot
    obtain ⟨hresolve, hthere⟩ := resolve?_of_isDir habsolute' hdir
    simp only [PurePath.ofText_text]
    refine ⟨⟨habsolute', ?_⟩, ?_, hresolve, hthere⟩
    · rw [hchild]
      exact hinside.trans (List.prefix_append _ _)
    · rw [hchild]
      intro hsame
      have hlength := hinside.length_le
      rw [← hsame, List.length_append, List.length_singleton] at hlength
      omega
  · intro path form settings haccepted
    obtain ⟨hunder, hsubmit⟩ := importSubmitTyped_eq_ok haccepted
    exact ⟨importSubmit_paths hsubmit,
      underRoot_of_underImportRoot habsolute hunder⟩

/-- A path that leaves the import root and comes back is accepted. -/
theorem typed_paths_stay_under_downloads :
    let importRoot := PurePath.ofText (Utf8.ofString "/downloads")
    let path := " /downloads/../downloads//Album/ ".toList
    importRoot.root ≠ .relative ∧
      UnderRoot importRoot (.ofText (ofChars (strip path))) := by
  have habsolute :
      (PurePath.ofText (Utf8.ofString "/downloads")).root ≠ .relative := by
    decide
  obtain ⟨_, _, haccepted⟩ := typed_paths_stay_under_root _ habsolute
  have hsubmit : ∃ settings,
      importSubmitTyped (.ofText (Utf8.ofString "/downloads"))
        " /downloads/../downloads//Album/ ".toList
        (importPage shippedConfig).untouched = .ok settings := by
    refine ⟨{ JobSettings.ofPaths [[.name "downloads", .up,
      .name "downloads", .name "Album"]] with setFields := [] }, ?_⟩
    decide
  obtain ⟨settings, hsettings⟩ := hsubmit
  exact ⟨habsolute, (haccepted _ _ settings hsettings).2⟩

end Beetkeeper
