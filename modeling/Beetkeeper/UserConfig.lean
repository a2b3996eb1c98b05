/-
Beetkeeper's settings, read from the `beetkeeper` section of the beets config.
A YAML value is taken as its field's type parses it.  Beetkeeper resolves its
paths against the file system, from the working directory; beets makes a path
absolute from its own directory, lexically, and opens what that leads to.
-/
import Beetkeeper.FileTree
import Beetkeeper.ImportJobs

namespace Beetkeeper

open LexicalPath

/-- A path as the user wrote it, split at its slashes; `~` alone names no
user. -/
inductive SpelledPath where
  | absolute (raw : RawPath String)
  | home (user : String) (raw : RawPath String)
  | relative (raw : RawPath String)
deriving Repr, DecidableEq

/-- The text of a path's components; pathlib drops the `.` ones. -/
def segmentTexts (raw : RawPath String) : List String :=
  raw.filterMap fun
    | .here => none
    | .up => some ".."
    | .name n => some n

/-- `str(path)`. -/
def SpelledPath.text : SpelledPath → String
  | .absolute raw => "/" ++ "/".intercalate (segmentTexts raw)
  | .home user raw => "/".intercalate (("~" ++ user) :: segmentTexts raw)
  | .relative raw =>
      if (segmentTexts raw).isEmpty then "."
      else "/".intercalate (segmentTexts raw)

/-- What the meaning of a path depends on: the file system, the working
directory, the home directories, and the directory of beets' config. -/
structure PathContext where
  tree : FileTree String
  cwd : Location String
  homeOf : String → Option (Location String)
  beetsDir : Location String

namespace PathContext

end PathContext

/-- A field of a YAML mapping: left out, not of its type, or of it. -/
inductive RawField (α : Type) where
  | absent
  | invalid (message : String)
  | given (value : α)
deriving Repr, DecidableEq

/-- Where a value was refused, and why. -/
structure FieldError where
  loc : List String
  message : String
deriving Repr, DecidableEq

/-- A value, or everything that is wrong with it. -/
inductive Validated (α : Type) where
  | ok (value : α)
  | failed (errors : List FieldError)
deriving Repr, DecidableEq

namespace Validated

variable {α β : Type}

/-- A model's fields are validated one after another; every error is kept. -/
def collect : Validated (α → β) → Validated α → Validated β
  | ok build, ok value => ok (build value)
  | ok _, failed errors => failed errors
  | failed errors, ok _ => failed errors
  | failed errors, failed more => failed (errors ++ more)

/-- An `after` validator: it runs on a model whose fields are all valid. -/
def check (validated : Validated α) (loc : List String)
    (problem : α → Option String) : Validated α :=
  match validated with
  | ok value =>
      match problem value with
      | some message => failed [⟨loc, "Value error, " ++ message⟩]
      | none => ok value
  | failed errors => failed errors

end Validated

namespace RawField

variable {α β : Type}

def required (field : RawField α) (loc : List String) : Validated α :=
  match field with
  | absent => .failed [⟨loc, "Field required"⟩]
  | invalid message => .failed [⟨loc, message⟩]
  | given value => .ok value

def withDefault (field : RawField α) (loc : List String) (default : α) :
    Validated α :=
  match field with
  | absent => .ok default
  | invalid message => .failed [⟨loc, message⟩]
  | given value => .ok value

/-- `Field(default=.., gt=0)`. -/
def positive (field : RawField Int) (loc : List String) (default : Int) :
    Validated Int :=
  match field with
  | absent => .ok default
  | invalid message => .failed [⟨loc, message⟩]
  | given value =>
      if 0 < value then .ok value
      else .failed [⟨loc, "Input should be greater than 0"⟩]

/-- A section, and what stands for it when it is left out. -/
def subsection (field : RawField α) (loc : List String)
    (validate : α → Validated β) (missing : Validated β) : Validated β :=
  match field with
  | absent => missing
  | invalid message => .failed [⟨loc, message⟩]
  | given value => validate value

end RawField

structure RawServer where
  hostname : RawField String
  port : RawField Int
  forwardedAllowIps : RawField (Option String)
deriving Repr, DecidableEq

structure ServerConfSection where
  hostname : String
  port : Int
  forwardedAllowIps : Option String
deriving Repr, DecidableEq

def RawServer.validate (raw : RawServer) : Validated ServerConfSection :=
  ((Validated.ok ServerConfSection.mk).collect
    (raw.hostname.withDefault ["server", "hostname"] "127.0.0.1")).collect
    (raw.port.positive ["server", "port"] 8337) |>.collect
    (raw.forwardedAllowIps.withDefault ["server", "forwarded_allow_ips"] none)

structure RawAuth where
  enableLoginProtection : RawField Bool
  username : RawField (Option String)
  password : RawField (Option String)
  sessionTtlHours : RawField Int
deriving Repr, DecidableEq

structure AuthConfSection where
  enableLoginProtection : Bool
  username : Option String
  password : Option String
  sessionTtlHours : Int
deriving Repr, DecidableEq

/-- `credentials_required_when_protected`. -/
def AuthConfSection.credentialsRequiredWhenProtected
    (auth : AuthConfSection) : Option String :=
  if auth.enableLoginProtection &&
      (auth.username.isNone || auth.password.isNone) then
    some ("`beetkeeper.auth.enable_login_protection` is on, so " ++
      "`beetkeeper.auth.username` and `beetkeeper.auth.password` must both " ++
      "be set.")
  else none

def RawAuth.validate (raw : RawAuth) : Validated AuthConfSection :=
  (Validated.ok AuthConfSection.mk).collect
    (raw.enableLoginProtection.withDefault
      ["auth", "enable_login_protection"] false) |>.collect
    (raw.username.withDefault ["auth", "username"] none) |>.collect
    (raw.password.withDefault ["auth", "password"] none) |>.collect
    (raw.sessionTtlHours.positive ["auth", "session_ttl_hours"] (24 * 7))
    |>.check ["auth"] AuthConfSection.credentialsRequiredWhenProtected

structure RawDatabase where
  sqlitePath : RawField SpelledPath
  autoUpgrade : RawField Bool
deriving Repr, DecidableEq

structure DatabaseConfSection where
  sqlitePath : SpelledPath
  autoUpgrade : Bool
deriving Repr, DecidableEq

def RawDatabase.validate (raw : RawDatabase) :
    Validated DatabaseConfSection :=
  (Validated.ok DatabaseConfSection.mk).collect
    (raw.sqlitePath.required ["database", "sqlite_path"]) |>.collect
    (raw.autoUpgrade.withDefault ["database", "auto_upgrade"] true)

structure RawDownloaderHook where
  baseUrl : RawField (Option String)
  searchEndpointPath : RawField (Option String)
  beetFieldToDlSearchField : RawField StrDict
  filepathJsonKey : RawField (Option String)
  replaceDownloaderPathsPrefix : RawField String
  apiKey : RawField (Option String)
deriving Repr, DecidableEq

structure DownloaderHookConfSection where
  baseUrl : Option String
  searchEndpointPath : Option String
  beetFieldToDlSearchField : StrDict
  filepathJsonKey : Option String
  replaceDownloaderPathsPrefix : String
  apiKey : Option String
deriving Repr, DecidableEq

/-- The settings an enabled hook still lacks; an empty text is as good as
none. -/
def DownloaderHookConfSection.missing (hook : DownloaderHookConfSection) :
    List String :=
  [("search_endpoint_path", hook.searchEndpointPath.getD "" == ""),
    ("filepath_json_key", hook.filepathJsonKey.getD "" == ""),
    ("beet_field_to_dl_search_field", hook.beetFieldToDlSearchField.isEmpty)]
    |>.filter Prod.snd |>.map Prod.fst

/-- `search_settings_required_when_enabled`. -/
def DownloaderHookConfSection.searchSettingsRequiredWhenEnabled
    (hook : DownloaderHookConfSection) : Option String :=
  if hook.baseUrl.isNone || hook.missing.isEmpty then none
  else
    some ("`downloader_hook.base_url` is set, so these settings are " ++
      "required: " ++ ", ".intercalate hook.missing)

def RawDownloaderHook.validate (raw : RawDownloaderHook) :
    Validated DownloaderHookConfSection :=
  (Validated.ok DownloaderHookConfSection.mk).collect
    (raw.baseUrl.withDefault ["downloader_hook", "base_url"] none) |>.collect
    (raw.searchEndpointPath.withDefault
      ["downloader_hook", "search_endpoint_path"] none) |>.collect
    (raw.beetFieldToDlSearchField.withDefault
      ["downloader_hook", "beet_field_to_dl_search_field"] []) |>.collect
    (raw.filepathJsonKey.withDefault
      ["downloader_hook", "filepath_json_key"] none) |>.collect
    (raw.replaceDownloaderPathsPrefix.withDefault
      ["downloader_hook", "replace_downloader_paths_prefix"] "") |>.collect
    (raw.apiKey.withDefault ["downloader_hook", "api_key"] none)
    |>.check ["downloader_hook"]
      DownloaderHookConfSection.searchSettingsRequiredWhenEnabled

inductive LogLevel where
  | critical
  | debug
  | error
  | info
  | notset
  | warning
deriving Repr, DecidableEq

/-- `extras` are the keys the section has no field for. -/
structure RawLogging where
  logLevel : RawField LogLevel
  logFilepath : RawField (Option SpelledPath)
  logRotationMaxBytes : RawField Nat
  extras : List String
deriving Repr, DecidableEq

structure LoggingConfSection where
  logLevel : LogLevel
  logFilepath : Option SpelledPath
  logRotationMaxBytes : Nat
deriving Repr, DecidableEq

/-- `extra="forbid"`. -/
def forbidExtras (loc extras : List String) : Validated Unit :=
  if extras.isEmpty then .ok ()
  else
    .failed (extras.map fun key =>
      ⟨loc ++ [key], "Extra inputs are not permitted"⟩)

def RawLogging.validate (raw : RawLogging) : Validated LoggingConfSection :=
  (Validated.ok fun level path bytes _ =>
      LoggingConfSection.mk level path bytes).collect
    (raw.logLevel.withDefault ["logging", "log_level"] .info) |>.collect
    (raw.logFilepath.withDefault ["logging", "log_filepath"] none) |>.collect
    (raw.logRotationMaxBytes.withDefault
      ["logging", "log_rotation_max_bytes"] 100000000) |>.collect
    (forbidExtras ["logging"] raw.extras)

/-- The `beetkeeper` section as it is written. -/
structure RawUserConfig where
  downloadsPath : RawField SpelledPath
  server : RawField RawServer
  database : RawField RawDatabase
  logging : RawField RawLogging
  downloaderHook : RawField RawDownloaderHook
  auth : RawField RawAuth
deriving Repr, DecidableEq

structure UserConfig where
  beetsConfigFilepath : Location String
  downloadsPath : SpelledPath
  server : ServerConfSection
  database : DatabaseConfSection
  logging : LoggingConfSection
  downloaderHook : DownloaderHookConfSection
  auth : AuthConfSection
deriving Repr, DecidableEq

/-- `UserConfig` up to its last check. -/
def RawUserConfig.validate (raw : RawUserConfig) (context : PathContext)
    (confPath : Location String) : Validated UserConfig :=
  (Validated.ok UserConfig.mk).collect
    (if context.tree.isFile confPath then .ok confPath
      else .failed
        [⟨["beets_config_filepath"], "Path does not point to a file"⟩])
    |>.collect (raw.downloadsPath.withDefault ["downloads_path"]
      (.absolute [.name "downloads"]))
    |>.collect (raw.server.subsection ["server"] RawServer.validate
      (.failed [⟨["server"], "Field required"⟩]))
    |>.collect (raw.database.subsection ["database"] RawDatabase.validate
      (.failed [⟨["database"], "Field required"⟩]))
    |>.collect (raw.logging.subsection ["logging"] RawLogging.validate
      (.ok ⟨.info, none, 100000000⟩))
    |>.collect (raw.downloaderHook.subsection ["downloader_hook"]
      RawDownloaderHook.validate (.ok ⟨none, none, [], none, "", none⟩))
    |>.collect (raw.auth.subsection ["auth"] RawAuth.validate
      (.ok ⟨false, none, none, 24 * 7⟩))

inductive LoadError where
  /-- a `BeetKeeperConfigError` raised before validation -/
  | failed (cause : String)
  | misconfigured (errors : List FieldError)
  /-- an exception that is no `ValueError` -/
  | raised (message : String)
deriving Repr, DecidableEq

/-- The text of the exception `load_config` raises. -/
def LoadError.message : LoadError → String
  | .failed _ =>
      "Failed to load beets' `beetkeeper` config section (see above for " ++
        "errors)."
  | .misconfigured _ =>
      "Beetkeeper is misconfigured. Beets' `beetkeeper` config section has " ++
        "problem(s). See above."
  | .raised message => message

end Beetkeeper
