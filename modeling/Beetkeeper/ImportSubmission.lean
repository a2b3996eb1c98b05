/-
How the settings of a submission come about: from the request, and where the
request is silent from the process-global configuration, which by then may
carry the settings of the last job.
-/
import Beetkeeper.PyText
import Beetkeeper.ImportConfig
import Beetkeeper.ImportStore

namespace Beetkeeper

open PyText

/-- `import_config_flag`: the top source, if it is a boolean. -/
def importConfigFlag : List (Option Bool) → Bool
  | some value :: _ => value
  | _ => false

/-- `import_config_set_fields`: the top source. -/
def ImportConfig.importConfigSetFields (config : ImportConfig) : StrDict :=
  config.setFields.headD []

structure HttpError where
  code : Nat
  detail : String
deriving Repr, DecidableEq

/-- `ImportSubmitRequest` as it arrives: `none` is a field left out. -/
structure ImportSubmitRequest where
  paths : List OsPath
  quiet : Option Bool
  logpath : Option (Option String)
  groupAlbums : Option Bool
  flat : Option Bool
  setFields : Option StrDict
deriving Repr, DecidableEq

/-- `start_import`: the settings of the job that `POST /api/import` creates. -/
def startImport (config : ImportConfig) (body : ImportSubmitRequest) :
    JobSettings :=
  { JobSettings.ofPaths body.paths with
    quiet := body.quiet.getD (importConfigFlag config.quiet)
    logpath := body.logpath.getD config.log
    groupAlbums := body.groupAlbums.getD (importConfigFlag config.groupAlbums)
    flat := body.flat.getD (importConfigFlag config.flat)
    setFields := body.setFields.getD config.importConfigSetFields }

/-- `CleanSlateSubmitRequest` as it arrives; it has no grouping fields. -/
structure CleanSlateSubmitRequest where
  beetsAlbumId : Option Nat
  beetsItemId : Option Nat
  sourcePath : OsPath
  allowFewerFiles : Bool
  quiet : Option Bool
  logpath : Option (Option String)
  setFields : Option StrDict
deriving Repr, DecidableEq

/-- `reject_unsafe_clean_slate`. -/
def rejectUnsafeCleanSlate (plan : CleanSlatePreview)
    (needsConfirmationDetail : String) : Except HttpError Unit :=
  if !plan.errors.isEmpty then
    .error ⟨422, " ".intercalate plan.errors⟩
  else if plan.needsConfirmation then
    .error ⟨409, needsConfirmationDetail⟩
  else .ok ()

/-- `start_clean_slate`, given what the preview of the request returned. -/
def startCleanSlate (config : ImportConfig)
    (preview : Except HttpError CleanSlatePreview)
    (body : CleanSlateSubmitRequest) : Except HttpError JobSettings := do
  let plan ← preview
  let sourceFiles := plan.sourceAudioFiles
  let presentFiles := plan.filesPresent
  rejectUnsafeCleanSlate plan
    (s!"The source holds {sourceFiles} audio file(s) but the entry has " ++
      s!"{presentFiles} on disk; set allow_fewer_files=true to proceed " ++
      "anyway.")
  return { JobSettings.ofPaths [body.sourcePath] with
    quiet := body.quiet.getD (importConfigFlag config.quiet)
    logpath := body.logpath.getD config.log
    setFields := body.setFields.getD config.importConfigSetFields
    cleanSlateAlbumId := body.beetsAlbumId
    cleanSlateItemId := body.beetsItemId
    cleanSlateAllowFewerFiles := body.allowFewerFiles }

/-- One `key=value` line for each entry. -/
def renderSetFields (fields : StrDict) : List Char :=
  ['\n'].intercalate (fields.map fun entry =>
    entry.1.toList ++ '=' :: entry.2.toList)

/-- What one line of the text does to the fields read so far. -/
def readSetFieldsLine (fields : StrDict) (line : List Char) :
    Except HttpError StrDict :=
  let text := strip line
  if text.isEmpty then .ok fields
  else
    match partition '=' text with
    | (key, separator, value) =>
        if !separator || (strip key).isEmpty then
          let shown := String.ofList (PyText.repr text)
          .error ⟨422,
            s!"Set-fields line {shown} is not of the form field=value."⟩
        else
          .ok (StrDict.set fields (String.ofList (strip key))
            (String.ofList (strip value)))

/-- `_parse_set_fields`. -/
def parseSetFields (raw : List Char) : Except HttpError StrDict :=
  (splitLines raw).foldlM readSetFieldsLine []

/-- The `import_defaults` of `import_page`. -/
structure ImportDefaults where
  quiet : Bool
  groupAlbums : Bool
  flat : Bool
  logpath : String
  setFields : List Char
deriving Repr, DecidableEq

/-- `import_page`. -/
def importPage (config : ImportConfig) : ImportDefaults where
  quiet := importConfigFlag config.quiet
  groupAlbums := importConfigFlag config.groupAlbums
  flat := importConfigFlag config.flat
  logpath := config.log.getD ""
  setFields := renderSetFields config.importConfigSetFields

/-- The option fields of the page's form as they are sent. -/
structure ImportForm where
  quiet : Bool
  groupAlbums : Bool
  flat : Bool
  logpath : String
  setFields : List Char
deriving Repr, DecidableEq

/-- The form as the page prefills it, submitted without a change. -/
def ImportDefaults.untouched (page : ImportDefaults) : ImportForm where
  quiet := page.quiet
  groupAlbums := page.groupAlbums
  flat := page.flat
  logpath := page.logpath
  setFields := sendNewlines page.setFields

/-- `import_submit`, once it accepted the path. -/
def importSubmit (path : OsPath) (form : ImportForm) :
    Except HttpError JobSettings := do
  let fields ← parseSetFields form.setFields
  let logpath := strip form.logpath.toList
  return { JobSettings.ofPaths [path] with
    quiet := form.quiet
    groupAlbums := form.groupAlbums
    flat := form.flat
    logpath := if logpath.isEmpty then none else some (String.ofList logpath)
    setFields := fields }

theorem ok_of_rejectUnsafeCleanSlate {plan : CleanSlatePreview}
    {detail : String} {checked : Unit}
    (haccepted : rejectUnsafeCleanSlate plan detail = .ok checked) :
    plan.ok = true := by
  unfold rejectUnsafeCleanSlate at haccepted
  split at haccepted
  · cases haccepted
  · rename_i herrors
    split at haccepted
    · cases haccepted
    · rename_i hconfirm
      simp only [Bool.not_eq_true', Bool.not_eq_false] at herrors
      simp [CleanSlatePreview.ok, herrors, hconfirm]

/-- A clean slate is accepted on an `ok` preview only, and its job carries no
grouping. -/
theorem startCleanSlate_eq_ok {config : ImportConfig}
    {preview : Except HttpError CleanSlatePreview}
    {body : CleanSlateSubmitRequest} {settings : JobSettings}
    (haccepted : startCleanSlate config preview body = .ok settings) :
    (∃ plan, preview = .ok plan ∧ plan.ok = true) ∧
      settings.groupAlbums = false ∧ settings.flat = false ∧
      settings.setFields =
        body.setFields.getD config.importConfigSetFields := by
  cases preview with
  | error refusal => cases haccepted
  | ok plan =>
      simp only [startCleanSlate, bind, Except.bind] at haccepted
      split at haccepted
      · cases haccepted
      · rename_i hchecked
        cases haccepted
        exact ⟨⟨plan, rfl, ok_of_rejectUnsafeCleanSlate hchecked⟩,
          rfl, rfl, rfl⟩

/-- The job of an accepted clean slate names what the request names. -/
theorem startCleanSlate_columns {config : ImportConfig}
    {preview : Except HttpError CleanSlatePreview}
    {body : CleanSlateSubmitRequest} {settings : JobSettings}
    (haccepted : startCleanSlate config preview body = .ok settings) :
    settings.cleanSlateAlbumId = body.beetsAlbumId ∧
      settings.cleanSlateItemId = body.beetsItemId := by
  cases preview with
  | error refusal => cases haccepted
  | ok plan =>
      simp only [startCleanSlate, bind, Except.bind] at haccepted
      split at haccepted
      · cases haccepted
      · cases haccepted
        exact ⟨rfl, rfl⟩

/-- The form's settings are its own, its fields what its text reads as. -/
theorem importSubmit_eq_ok {path : OsPath} {form : ImportForm}
    {settings : JobSettings}
    (haccepted : importSubmit path form = .ok settings) :
    settings.groupAlbums = form.groupAlbums ∧ settings.flat = form.flat ∧
      parseSetFields form.setFields = .ok settings.setFields := by
  unfold importSubmit at haccepted
  cases hfields : parseSetFields form.setFields with
  | error refusal =>
      rw [hfields] at haccepted
      cases haccepted
  | ok fields =>
      rw [hfields] at haccepted
      cases haccepted
      exact ⟨rfl, rfl, rfl⟩

theorem importSubmit_paths {path : OsPath} {form : ImportForm}
    {settings : JobSettings}
    (haccepted : importSubmit path form = .ok settings) :
    settings.paths = [path] := by
  unfold importSubmit at haccepted
  cases hfields : parseSetFields form.setFields with
  | error refusal =>
      rw [hfields] at haccepted
      cases haccepted
  | ok fields =>
      rw [hfields] at haccepted
      cases haccepted
      rfl

end Beetkeeper
