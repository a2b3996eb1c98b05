/-
Whether the database beetkeeper migrates can be the library beets opens.  The
last check of the settings means to exclude it, and compares the database with
the config file instead.
-/
import Beetkeeper.UserConfig

namespace Beetkeeper

open LexicalPath

namespace Validated

variable {α β : Type}

def IsOk (validated : Validated α) : Prop :=
  ∃ value, validated = ok value

@[simp] theorem isOk_ok (value : α) : (ok value).IsOk := ⟨value, rfl⟩

@[simp] theorem not_isOk_failed (errors : List FieldError) :
    ¬ (failed errors : Validated α).IsOk := nofun

@[simp] theorem isOk_collect {build : Validated (α → β)}
    {field : Validated α} :
    (build.collect field).IsOk ↔ build.IsOk ∧ field.IsOk := by
  cases build <;> cases field <;> simp [collect]

end Validated

namespace RawField

variable {α β : Type}

/-- The field holds a value of its type, if anything, and this is true of
it. -/
def Accepts (field : RawField α) (P : α → Prop) : Prop :=
  match field with
  | absent => True
  | invalid _ => False
  | given value => P value

/-- The field is there, and this is true of its value. -/
def Requires (field : RawField α) (P : α → Prop) : Prop :=
  ∃ value, field = given value ∧ P value

/-- Whatever is in the field, it is of its type. -/
def WellTyped (field : RawField α) : Prop := field.Accepts fun _ => True

def getD (field : RawField α) (default : α) : α :=
  match field with
  | given value => value
  | _ => default

@[simp] theorem isOk_withDefault {field : RawField α} {loc : List String}
    {default : α} :
    (field.withDefault loc default).IsOk ↔ field.WellTyped := by
  cases field <;> simp [withDefault, WellTyped, Accepts]

@[simp] theorem isOk_required {field : RawField α} {loc : List String} :
    (field.required loc).IsOk ↔ field.Requires fun _ => True := by
  cases field <;> simp [required, Requires]

theorem positive_eq_ok {field : RawField Int} {loc : List String}
    {default value : Int} :
    field.positive loc default = .ok value ↔
      field.Accepts (0 < ·) ∧ field.getD default = value := by
  cases field with
  | absent => simp [positive, Accepts, getD]
  | invalid message => simp [positive, Accepts]
  | given found =>
      by_cases hpositive : 0 < found
      · simp [positive, Accepts, getD, hpositive]
      · simp [positive, Accepts, hpositive]

@[simp] theorem isOk_positive {field : RawField Int} {loc : List String}
    {default : Int} :
    (field.positive loc default).IsOk ↔ field.Accepts (0 < ·) := by
  simp only [Validated.IsOk, positive_eq_ok, exists_and_left, exists_eq',
    and_true]

/-- A section that must be there. -/
@[simp] theorem isOk_subsection_failed {field : RawField α}
    {loc : List String} {validate : α → Validated β}
    {errors : List FieldError} :
    (field.subsection loc validate (.failed errors)).IsOk ↔
      field.Requires fun raw => (validate raw).IsOk := by
  cases field <;> simp [subsection, Requires]

/-- A section that may be left out. -/
@[simp] theorem isOk_subsection_ok {field : RawField α} {loc : List String}
    {validate : α → Validated β} {missing : β} :
    (field.subsection loc validate (.ok missing)).IsOk ↔
      field.Accepts fun raw => (validate raw).IsOk := by
  cases field <;> simp [subsection, Accepts]

end RawField

def RawServer.Valid (raw : RawServer) : Prop :=
  raw.hostname.WellTyped ∧ raw.port.Accepts (0 < ·) ∧
    raw.forwardedAllowIps.WellTyped

/-- Login protection needs both credentials. -/
def RawAuth.Valid (raw : RawAuth) : Prop :=
  raw.enableLoginProtection.WellTyped ∧ raw.username.WellTyped ∧
    raw.password.WellTyped ∧ raw.sessionTtlHours.Accepts (0 < ·) ∧
    (raw.enableLoginProtection.getD false = true →
      raw.username.getD none ≠ none ∧ raw.password.getD none ≠ none)

def RawDatabase.Valid (raw : RawDatabase) : Prop :=
  (raw.sqlitePath.Requires fun _ => True) ∧ raw.autoUpgrade.WellTyped

/-- A hook with a base URL needs its search settings. -/
def RawDownloaderHook.Valid (raw : RawDownloaderHook) : Prop :=
  raw.baseUrl.WellTyped ∧ raw.searchEndpointPath.WellTyped ∧
    raw.beetFieldToDlSearchField.WellTyped ∧ raw.filepathJsonKey.WellTyped ∧
    raw.replaceDownloaderPathsPrefix.WellTyped ∧ raw.apiKey.WellTyped ∧
    (raw.baseUrl.getD none ≠ none →
      (raw.searchEndpointPath.getD none).getD "" ≠ "" ∧
      (raw.filepathJsonKey.getD none).getD "" ≠ "" ∧
      raw.beetFieldToDlSearchField.getD [] ≠ [])

/-- Only the keys the section has fields for. -/
def RawLogging.Valid (raw : RawLogging) : Prop :=
  raw.logLevel.WellTyped ∧ raw.logFilepath.WellTyped ∧
    raw.logRotationMaxBytes.WellTyped ∧ raw.extras = []

/-- Every section is valid, and the two that have no default are there. -/
def RawUserConfig.Valid (raw : RawUserConfig) : Prop :=
  raw.downloadsPath.WellTyped ∧ raw.server.Requires RawServer.Valid ∧
    raw.database.Requires RawDatabase.Valid ∧
    raw.logging.Accepts RawLogging.Valid ∧
    raw.downloaderHook.Accepts RawDownloaderHook.Valid ∧
    raw.auth.Accepts RawAuth.Valid

end Beetkeeper
