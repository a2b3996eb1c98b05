/-
What a submission gets for the settings it leaves open.  The defaults are read
from the configuration that the jobs of the process overlay, so they are the
file's own only as long as the last job carried them.
-/
import Beetkeeper.SetFieldsForm

namespace Beetkeeper

open PyText LexicalPath

/-- The settings that may be left open are those of the configuration file. -/
def JobSettings.OwnOf (settings : JobSettings) (file : ImportConfig) : Prop :=
  settings.groupAlbums = importConfigFlag file.groupAlbums ∧
  settings.flat = importConfigFlag file.flat ∧
  ∀ key, StrDict.get? settings.setFields key =
    StrDict.get? file.importConfigSetFields key

namespace ImportConfig

/-- The last job of the process to apply its settings, if any did, carried
the file's flags. -/
def FlagsCarried (file : ImportConfig) (runs : List JobRun) : Prop :=
  ∀ applied ∈ (appliedSettings runs).getLast?,
    applied.1.groupAlbums = importConfigFlag file.groupAlbums ∧
    applied.1.flat = importConfigFlag file.flat

/-- That job, if there was one, set the file's fields. -/
def FieldsCarried (file : ImportConfig) (runs : List JobRun) : Prop :=
  ∀ applied ∈ (appliedSettings runs).getLast?, ∀ key,
    StrDict.get? (mergedSetFields applied.1 applied.2) key =
      StrDict.get? file.importConfigSetFields key

/-- The file neither groups albums nor flattens. -/
def Ungrouped (file : ImportConfig) : Prop :=
  importConfigFlag file.groupAlbums = false ∧
  importConfigFlag file.flat = false

/-- Every submission that leaves them open, whichever way it comes, gets the
file's own settings. -/
def OpenSettingsAreOwn (file : ImportConfig) (runs : List JobRun) : Prop :=
  (∀ paths quiet logpath,
    (startImport (file.afterRuns runs)
      ⟨paths, quiet, logpath, none, none, none⟩).OwnOf file) ∧
  (∀ preview body settings, body.setFields = none →
    startCleanSlate (file.afterRuns runs) preview body = .ok settings →
    settings.OwnOf file) ∧
  ∀ path, ∃ settings,
    importSubmit path (importPage (file.afterRuns runs)).untouched =
      .ok settings ∧ settings.OwnOf file

end ImportConfig

/-- An acceptable dry run. -/
def emptyPreview : CleanSlatePreview where
  subject := .album
  beetsId := 1
  label := "? - ?"
  itemCount := 0
  filesPresent := 0
  missingPaths := []
  expectedTracks := none
  filesToDelete := []
  filesKeptOutsideLibrary := []
  artToDelete := none
  flexibleAttributesLost := []
  fieldsPreserved := []
  sourcePath := ""
  sourceAudioFiles := 1
  sourceAlbumGroups := 1
  warnings := []
  errors := []
  needsConfirmation := false

section Defaults

variable {file : ImportConfig} {runs : List JobRun}

/-- What is read where a submission is silent is what the last job applied,
or else the file's. -/
theorem defaults_afterRuns (file : ImportConfig) (runs : List JobRun) :
    match (appliedSettings runs).getLast? with
    | none => file.afterRuns runs = file
    | some applied =>
        importConfigFlag (file.afterRuns runs).groupAlbums =
            applied.1.groupAlbums ∧
          importConfigFlag (file.afterRuns runs).flat = applied.1.flat ∧
          (file.afterRuns runs).importConfigSetFields =
            mergedSetFields applied.1 applied.2 := by
  rw [afterRuns_eq]
  rcases List.eq_nil_or_concat (appliedSettings runs) with
    hnone | ⟨earlier, last, hlast⟩
  · simp [hnone]
  · simp [hlast, importConfigFlag, ImportConfig.importConfigSetFields]

theorem flagsCarried_iff :
    file.FlagsCarried runs ↔
      importConfigFlag (file.afterRuns runs).groupAlbums =
          importConfigFlag file.groupAlbums ∧
        importConfigFlag (file.afterRuns runs).flat =
          importConfigFlag file.flat := by
  have hread := defaults_afterRuns file runs
  unfold ImportConfig.FlagsCarried
  cases hlast : (appliedSettings runs).getLast? with
  | none =>
      rw [hlast] at hread
      rw [hread]
      simp
  | some applied =>
      rw [hlast] at hread
      obtain ⟨hgroup, hflat, _⟩ := hread
      rw [hgroup, hflat]
      simp

theorem fieldsCarried_iff :
    file.FieldsCarried runs ↔
      ∀ key, StrDict.get? (file.afterRuns runs).importConfigSetFields key =
        StrDict.get? file.importConfigSetFields key := by
  have hread := defaults_afterRuns file runs
  unfold ImportConfig.FieldsCarried
  cases hlast : (appliedSettings runs).getLast? with
  | none =>
      rw [hlast] at hread
      rw [hread]
      simp
  | some applied =>
      rw [hlast] at hread
      rw [hread.2.2]
      simp

/-- `POST /api/import` with its settings left open. -/
theorem startImport_own_iff (paths : List OsPath) (quiet : Option Bool)
    (logpath : Option (Option String)) :
    (startImport (file.afterRuns runs)
        ⟨paths, quiet, logpath, none, none, none⟩).OwnOf file ↔
      file.FlagsCarried runs ∧ file.FieldsCarried runs := by
  rw [flagsCarried_iff, fieldsCarried_iff, and_assoc]
  rfl

/-- A clean slate never groups, so it has the file's flags when these are
off. -/
theorem startCleanSlate_own_iff
    {preview : Except HttpError CleanSlatePreview}
    {body : CleanSlateSubmitRequest} {settings : JobSettings}
    (hopen : body.setFields = none)
    (haccepted : startCleanSlate (file.afterRuns runs) preview body =
      .ok settings) :
    settings.OwnOf file ↔ file.Ungrouped ∧ file.FieldsCarried runs := by
  obtain ⟨_, hgroup, hflat, hfields⟩ := startCleanSlate_eq_ok haccepted
  rw [hopen] at hfields
  rw [JobSettings.OwnOf, hgroup, hflat, hfields, fieldsCarried_iff,
    ImportConfig.Ungrouped, and_assoc, eq_comm (a := false),
    eq_comm (a := false)]
  rfl

/-- The form as the page shows it; its fields come back from their text. -/
theorem importSubmit_own_iff (path : OsPath) :
    (∃ settings,
      importSubmit path (importPage (file.afterRuns runs)).untouched =
        .ok settings ∧ settings.OwnOf file) ↔
    file.FlagsCarried runs ∧ ∃ read,
      parseSetFields (sendNewlines (renderSetFields
        (file.afterRuns runs).importConfigSetFields)) = .ok read ∧
      ∀ key, StrDict.get? read key =
        StrDict.get? file.importConfigSetFields key := by
  rw [flagsCarried_iff]
  constructor
  · rintro ⟨settings, haccepted, hgroup, hflat, hfields⟩
    obtain ⟨hformGroup, hformFlat, hread⟩ := importSubmit_eq_ok haccepted
    exact ⟨⟨hformGroup.symm.trans hgroup, hformFlat.symm.trans hflat⟩,
      _, hread, hfields⟩
  · rintro ⟨⟨hgroup, hflat⟩, read, hread, hfields⟩
    have haccepted : ∃ settings,
        importSubmit path (importPage (file.afterRuns runs)).untouched =
          .ok settings := by
      have hform : parseSetFields
        (importPage (file.afterRuns runs)).untouched.setFields = .ok read :=
          hread
      rw [importSubmit, hform]
      exact ⟨_, rfl⟩
    obtain ⟨settings, hsettings⟩ := haccepted
    obtain ⟨hformGroup, hformFlat, hformRead⟩ := importSubmit_eq_ok hsettings
    refine ⟨settings, hsettings, hformGroup.trans hgroup,
      hformFlat.trans hflat, fun key => ?_⟩
    have hsame : settings.setFields = read :=
      Except.ok.inj (hformRead.symm.trans hread)
    rw [hsame]
    exact hfields key

/-- What the jobs leave is a mapping again. -/
theorem nodup_keys_afterRuns
    (hkeys : (StrDict.keys file.importConfigSetFields).Nodup)
    (hjobs : ∀ run ∈ runs, (StrDict.keys run.job.setFields).Nodup) :
    (StrDict.keys (file.afterRuns runs).importConfigSetFields).Nodup := by
  have hread := defaults_afterRuns file runs
  cases hlast : (appliedSettings runs).getLast? with
  | none =>
      rw [hlast] at hread
      rw [hread]
      exact hkeys
  | some applied =>
      rw [hlast] at hread
      rw [hread.2.2]
      obtain ⟨run, hrun, happlied⟩ :=
        List.mem_filterMap.mp (List.mem_of_getLast? hlast)
      obtain ⟨preserved, _, rfl⟩ := Option.map_eq_some_iff.mp happlied
      exact StrDict.nodup_keys_union (hjobs run hrun) _

end Defaults

/-- When the settings a submission leaves open are the file's own: for the
API, when the last job carried them; for a clean slate, when the file does
not group and the last job carried its fields; for every way of submitting,
the page's form among them, when moreover the fields fit the form's lines. -/
theorem open_settings_are_own_iff (file : ImportConfig) (runs : List JobRun)
    (hkeys : (StrDict.keys file.importConfigSetFields).Nodup)
    (hjobs : ∀ run ∈ runs, (StrDict.keys run.job.setFields).Nodup) :
    (∀ paths quiet logpath,
      (startImport (file.afterRuns runs)
          ⟨paths, quiet, logpath, none, none, none⟩).OwnOf file ↔
        file.FlagsCarried runs ∧ file.FieldsCarried runs) ∧
    (∀ preview body settings, body.setFields = none →
      startCleanSlate (file.afterRuns runs) preview body = .ok settings →
      (settings.OwnOf file ↔ file.Ungrouped ∧ file.FieldsCarried runs)) ∧
    (file.OpenSettingsAreOwn runs ↔
      file.Ungrouped ∧ file.FlagsCarried runs ∧ file.FieldsCarried runs ∧
        ∀ entry ∈ file.importConfigSetFields, FitsLine entry) := by
  have hafter := nodup_keys_afterRuns hkeys hjobs
  -- the form's text is that of what the last job left
  have hform : file.FieldsCarried runs →
      ((∃ read, parseSetFields (sendNewlines (renderSetFields
          (file.afterRuns runs).importConfigSetFields)) = .ok read ∧
        ∀ key, StrDict.get? read key =
          StrDict.get? file.importConfigSetFields key) ↔
      ∀ entry ∈ file.importConfigSetFields, FitsLine entry) := by
    intro hcarried
    have hsame := fieldsCarried_iff.mp hcarried
    have hmem := StrDict.mem_iff_of_get?_eq hafter hkeys hsame
    simp only [← hsame, ← hmem]
    exact read_back_iff hafter
  refine ⟨startImport_own_iff, fun preview body settings hopen haccepted =>
    startCleanSlate_own_iff hopen haccepted, ?_⟩
  constructor
  · rintro ⟨hapi, hslate, hsubmit⟩
    obtain ⟨hflags, hfields⟩ :=
      (startImport_own_iff [] none none).mp (hapi [] none none)
    obtain ⟨settings, haccepted⟩ : ∃ settings,
        startCleanSlate (file.afterRuns runs) (.ok emptyPreview)
          ⟨some 1, none, [], false, none, none, none⟩ = .ok settings :=
      ⟨_, rfl⟩
    have hungrouped := (startCleanSlate_own_iff rfl haccepted).mp
      (hslate _ _ settings rfl haccepted)
    have hread := (importSubmit_own_iff []).mp (hsubmit [])
    exact ⟨hungrouped.1, hflags, hfields, (hform hfields).mp hread.2⟩
  · rintro ⟨hungrouped, hflags, hfields, hfits⟩
    refine ⟨fun paths quiet logpath => ?_,
      fun preview body settings hopen haccepted => ?_, fun path => ?_⟩
    · exact (startImport_own_iff paths quiet logpath).mpr ⟨hflags, hfields⟩
    · exact (startCleanSlate_own_iff hopen haccepted).mpr
        ⟨hungrouped, hfields⟩
    · exact (importSubmit_own_iff path).mpr
        ⟨hflags, (hform hfields).mpr hfits⟩

/-- A configuration file that sets a genre. -/
def jazzFile : ImportConfig :=
  { shippedConfig with setFields := [[("genre", "Jazz")], []] }

/-- After a job that carried them, open settings are still the file's. -/
theorem open_settings_are_own_after_a_job :
    (StrDict.keys jazzFile.importConfigSetFields).Nodup ∧
    (∀ run ∈ [(⟨importJob 1 [("genre", "Jazz")], .ok []⟩ : JobRun)],
      (StrDict.keys run.job.setFields).Nodup) ∧
    jazzFile.OpenSettingsAreOwn
      [⟨importJob 1 [("genre", "Jazz")], .ok []⟩] := by
  have hkeys : (StrDict.keys jazzFile.importConfigSetFields).Nodup := by
    decide
  have hjobs : ∀ run ∈ [(⟨importJob 1 [("genre", "Jazz")], .ok []⟩ : JobRun)],
      (StrDict.keys run.job.setFields).Nodup := by
    intro run hrun
    rw [List.mem_singleton.mp hrun]
    decide
  refine ⟨hkeys, hjobs, (open_settings_are_own_iff jazzFile _ hkeys
    hjobs).2.2.mpr ⟨⟨rfl, rfl⟩, ?_, ?_, ?_⟩⟩
  · intro applied happlied
    cases happlied
    exact ⟨rfl, rfl⟩
  · intro applied happlied key
    cases happlied
    rfl
  · intro entry hentry
    rw [List.mem_singleton.mp hentry]
    constructor <;> decide

/-- A job that groups albums and sets a genre. -/
def groupingRun : JobRun :=
  ⟨{ importJob 1 [("genre", "Jazz")] with groupAlbums := true }, .ok []⟩

/-- The same request to the API makes one job in a fresh process and another
after a job with settings of its own. -/
theorem open_settings_follow_the_last_job :
    let submitted := fun runs => startImport (shippedConfig.afterRuns runs)
      ⟨[spell ["downloads", "Album"]], none, none, none, none, none⟩
    (submitted []).OwnOf shippedConfig ∧
      ¬ (submitted [groupingRun]).OwnOf shippedConfig ∧
      (submitted [groupingRun]).groupAlbums ≠ (submitted []).groupAlbums ∧
      StrDict.get? (submitted [groupingRun]).setFields "genre" ≠
        StrDict.get? (submitted []).setFields "genre" := by
  refine ⟨⟨rfl, rfl, fun _ => rfl⟩, fun hown => ?_, by decide, by decide⟩
  have hgroup := hown.1
  revert hgroup
  decide

end Beetkeeper
