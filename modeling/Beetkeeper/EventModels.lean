/-
The models of what is pushed to the event routes; how the body of a track or
of an import task is validated, and what pydantic makes of the values in it.
-/
import Beetkeeper.PyValue

namespace Beetkeeper

inductive BeetsEventType where
  | albumImported
  | albumRemoved
  | importTaskFiles
  | trackImported
  | trackRemoved
deriving Repr, DecidableEq

def BeetsEventType.value : BeetsEventType → String
  | albumImported => "album_imported"
  | albumRemoved => "album_removed"
  | importTaskFiles => "import_task_files"
  | trackImported => "item_imported"
  | trackRemoved => "item_removed"

def BeetsEventType.all : List BeetsEventType :=
  [albumImported, albumRemoved, importTaskFiles, trackImported, trackRemoved]

/-- The types of the optional fields. -/
inductive FieldKind where
  | str
  | intOrNone
  | floatOrNone
  | listOrNone
  | bool
deriving Repr, DecidableEq

/-- The value is of this type. -/
def FieldKind.Holds : FieldKind → PyValue → Prop
  | str, .str text => (Utf8.scalars? text).isSome
  | intOrNone, .int _ => True
  | floatOrNone, .float _ => True
  | floatOrNone, .int _ => True
  | listOrNone, .sequence _ => True
  | bool, .bool _ => True
  | _, _ => False

/-- What pydantic reads in a value, for each type.  Only what the models rely
on is stated: values of the type itself are taken, and a string is one for a
`str` or `bytes` field exactly if it has no lone surrogate. -/
structure Pydantic where
  int : PyValue → Option Int
  float : PyValue → Option Rat
  str : PyValue → Option String
  bytes : PyValue → Option (List UInt8)
  list : PyValue → Option (List PyValue)
  bool : PyValue → Option Bool
  awareDatetime : PyValue → Option AwareDatetime
  /-- `datetime.isoformat` -/
  isoformat : AwareDatetime → Utf8.Text
  int_int : ∀ value, int (.int value) = some value
  float_float : ∀ value, float (.float value) = some value
  float_int : ∀ value : Int, float (.int value) = some (value : Rat)
  str_str : ∀ text, str (.str text) = (Utf8.scalars? text).map String.ofList
  bytes_str : ∀ text,
    bytes (.str text) = (Utf8.scalars? text).map Utf8.encode
  list_sequence : ∀ values, list (.sequence values) = some values
  bool_bool : ∀ value, bool (.bool value) = some value
  awareDatetime_isoformat : ∀ time,
    awareDatetime (.str (isoformat time)) = some time

def fieldsOf (kind : FieldKind) (names : List String) :
    List (String × FieldKind) :=
  names.map fun name => (name, kind)

/-- The fields of `APITrack` that no route reads. -/
def unreadTrackFields : List (String × FieldKind) :=
  fieldsOf .str [
    "acoustid_fingerprint", "acoustid_id", "albumartist",
    "albumartist_credit", "albumartist_sort", "albumdisambig",
    "albumstatus", "albumtype", "artist", "artist_credit", "artist_sort",
    "asin", "barcode", "bitrate_mode", "catalognum", "comments",
    "composer_sort", "country", "disctitle", "encoder", "encoder_info",
    "encoder_settings", "format", "grouping", "initial_key", "isrc",
    "label", "language", "lyrics", "mb_albumartistid", "mb_albumid",
    "mb_artistid", "mb_releasegroupid", "mb_releasetrackid", "mb_trackid",
    "mb_workid", "media", "release_group_title", "releasegroupdisambig",
    "script", "style", "subtitle", "trackdisambig", "work", "work_disambig"] ++
  fieldsOf .intOrNone [
    "bitdepth", "bitrate", "bpm", "channels", "day", "disc",
    "discogs_albumid", "discogs_artistid", "discogs_labelid", "disctotal",
    "month", "original_day", "original_month", "original_year",
    "samplerate", "track", "tracktotal", "year"] ++
  fieldsOf .floatOrNone [
    "added", "length", "mtime", "r128_album_gain", "r128_track_gain",
    "rg_album_gain", "rg_album_peak", "rg_track_gain", "rg_track_peak"] ++
  fieldsOf .listOrNone [
    "albumartists", "albumartists_credit", "albumartists_sort",
    "albumtypes", "arrangers", "arrangers_ids", "artists", "artists_credit",
    "artists_ids", "artists_sort", "composers", "composers_ids", "genres",
    "lyricists", "lyricists_ids", "mb_albumartistids", "mb_artistids",
    "remixers", "remixers_ids"] ++
  fieldsOf .bool [
    "comp"]

structure APITrack where
  id : Int
  album : String
  albumId : Option Int
  path : List UInt8
  title : String
deriving Repr, DecidableEq

structure APIAlbum where
  id : Int
  album : String
deriving Repr, DecidableEq

structure AlbumEventBody where
  eventType : BeetsEventType
  pushedAt : AwareDatetime
  albumFields : APIAlbum
deriving Repr, DecidableEq

structure TrackEventBody where
  eventType : BeetsEventType
  pushedAt : AwareDatetime
  trackFields : APITrack
deriving Repr, DecidableEq

structure ImportTaskFilesEventBody where
  eventType : BeetsEventType
  pushedAt : AwareDatetime
  choiceFlag : Option String
  sourcePaths : List String
  importedItems : List TrackEventBody
deriving Repr, DecidableEq

namespace Pydantic

variable (pydantic : Pydantic)

/-- A value of the type, or `None`. -/
def orNone {A : Type} (read : PyValue → Option A) :
    PyValue → Option (Option A)
  | .null => some none
  | value => (read value).map some

def accepts : FieldKind → PyValue → Bool
  | .str, value => (pydantic.str value).isSome
  | .intOrNone, value => (orNone pydantic.int value).isSome
  | .floatOrNone, value => (orNone pydantic.float value).isSome
  | .listOrNone, value => (orNone pydantic.list value).isSome
  | .bool, value => (pydantic.bool value).isSome

/-- Every field that is read by no route has a value of its type; what is no
field of the model is let through. -/
def acceptsUnread (fields : List (String × FieldKind))
    (entries : List (String × PyValue)) : Bool :=
  entries.all fun entry =>
    match fields.lookup entry.1 with
    | some kind => pydantic.accepts kind entry.2
    | none => true

def eventType (value : PyValue) : Option BeetsEventType :=
  (pydantic.str value).bind fun text =>
    BeetsEventType.all.find? fun eventType => eventType.value = text

end Pydantic

def required {A : Type} (read : PyValue → Option A) (name : String)
    (entries : List (String × PyValue)) : Option A :=
  (entries.lookup name).bind read

def defaulted {A : Type} (read : PyValue → Option A) (default : A)
    (name : String) (entries : List (String × PyValue)) : Option A :=
  match entries.lookup name with
  | some value => read value
  | none => some default

theorem defaulted_of_lookup {A : Type} {read : PyValue → Option A}
    {default : A} {name : String} {entries : List (String × PyValue)}
    {value : PyValue} (hlookup : entries.lookup name = some value) :
    defaulted read default name entries = read value := by
  rw [defaulted, hlookup]

theorem required_of_lookup {A : Type} {read : PyValue → Option A}
    {name : String} {entries : List (String × PyValue)} {value : PyValue}
    (hlookup : entries.lookup name = some value) :
    required read name entries = read value := by
  rw [required, hlookup, Option.bind_some]

def APITrack.validate (pydantic : Pydantic) : PyValue → Option APITrack
  | .mapping entries => do
      let id ← required pydantic.int "id" entries
      let album ← defaulted pydantic.str "" "album" entries
      let albumId ← defaulted (Pydantic.orNone pydantic.int) none "album_id"
        entries
      let path ← defaulted pydantic.bytes [] "path" entries
      let title ← defaulted pydantic.str "" "title" entries
      if pydantic.acceptsUnread unreadTrackFields entries then
        some ⟨id, album, albumId, path, title⟩
      else none
  | _ => none

def TrackEventBody.validate (pydantic : Pydantic) :
    PyValue → Option TrackEventBody
  | .mapping entries => do
      let eventType ← required pydantic.eventType "event_type" entries
      let pushedAt ← required pydantic.awareDatetime "pushed_at" entries
      let trackFields ← required (APITrack.validate pydantic) "track_fields"
        entries
      some ⟨eventType, pushedAt, trackFields⟩
  | _ => none

/-- A list of values of the same type. -/
def Pydantic.listOf {A : Type} (pydantic : Pydantic)
    (read : PyValue → Option A) (value : PyValue) : Option (List A) :=
  (pydantic.list value).bind fun values => values.mapM read

theorem listOf_sequence {A : Type} (pydantic : Pydantic)
    (read : PyValue → Option A) (values : List PyValue) :
    pydantic.listOf read (.sequence values) = values.mapM read := by
  rw [Pydantic.listOf, pydantic.list_sequence, Option.bind_some]

def ImportTaskFilesEventBody.validate (pydantic : Pydantic) :
    PyValue → Option ImportTaskFilesEventBody
  | .mapping entries => do
      let eventType ← required pydantic.eventType "event_type" entries
      let pushedAt ← required pydantic.awareDatetime "pushed_at" entries
      let choiceFlag ← required (Pydantic.orNone pydantic.str) "choice_flag"
        entries
      let sourcePaths ← defaulted (pydantic.listOf pydantic.str) []
        "source_paths" entries
      let importedItems ← required
        (pydantic.listOf (TrackEventBody.validate pydantic))
        "imported_items" entries
      some ⟨eventType, pushedAt, choiceFlag, sourcePaths, importedItems⟩
  | _ => none

end Beetkeeper
