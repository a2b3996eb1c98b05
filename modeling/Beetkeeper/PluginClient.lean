/-
The request bodies the beets plugin makes of items and import tasks.  Every
body is JSON, so no push crashes in the serializer.
-/
import Beetkeeper.EventModels

namespace Beetkeeper

mutual

/-- `_to_json_safe`. -/
def toJsonSafe : PyValue → PyValue
  | .null => .null
  | .bool value => .bool value
  | .int value => .int value
  | .float value => .float value
  | .str text => .str text
  | .bytes content => .str (Utf8.fsdecode content)
  | .enumMember name => .str name
  | .mapping entries => .mapping (toJsonSafeEntries entries)
  | .sequence values => .sequence (toJsonSafeValues values)
  | .other text => .str text

def toJsonSafeEntries : List (String × PyValue) → List (String × PyValue)
  | [] => []
  | (key, value) :: rest => (key, toJsonSafe value) :: toJsonSafeEntries rest

def toJsonSafeValues : List PyValue → List PyValue
  | [] => []
  | value :: rest => toJsonSafe value :: toJsonSafeValues rest

end

/-- The fields of `APITrack` that the routes read. -/
def readTrackFields : List String :=
  ["id", "album", "album_id", "path", "title"]

/-- A library item; beets gives the fields it shares with `APITrack` the types
they have there, or leaves them unset. -/
structure BeetsItem where
  id : Int
  albumId : Option Int
  album : String
  title : String
  path : List UInt8
  others : List (String × PyValue)
  others_unread : ∀ entry ∈ others, entry.1 ∉ readTrackFields
  others_typed : ∀ entry ∈ others,
    ∀ kind ∈ unreadTrackFields.lookup entry.1,
      entry.2.isNull = true ∨ kind.Holds entry.2

def BeetsItem.fields (item : BeetsItem) : List (String × PyValue) :=
  ("id", .int item.id) ::
    ("album_id", (item.albumId.map PyValue.int).getD .null) ::
    ("album", .str (Utf8.ofString item.album)) ::
    ("title", .str (Utf8.ofString item.title)) ::
    ("path", .bytes item.path) :: item.others

/-- `_model_fields`. -/
def modelFields (fields : List (String × PyValue)) : List (String × PyValue) :=
  fields.filter fun entry => !entry.2.isNull

/-- An import task; of its decision, the name. -/
structure ImportTask where
  choiceFlag : Option String
  paths : Option (List (List UInt8))
  importedItems : List BeetsItem

section

variable (isoformat : AwareDatetime → Utf8.Text) (eventType : BeetsEventType)

/-- What every body starts with; the plugin's clock runs in UTC. -/
def bodyStart (now : Int) : List (String × PyValue) :=
  [("event_type", .str (Utf8.ofString eventType.value)),
    ("pushed_at", .str (isoformat ⟨now, 0⟩))]

/-- `_jsonify` of an item. -/
def jsonifyItem (now : Int) (item : BeetsItem) : PyValue :=
  toJsonSafe (.mapping (bodyStart isoformat eventType now ++
    [("track_fields", .mapping (modelFields item.fields))]))

/-- Each item's body has the next reading of the clock. -/
def jsonifyItems (clock : Nat → Int) : List BeetsItem → List PyValue
  | [] => []
  | item :: rest =>
      jsonifyItem isoformat eventType (clock 0) item ::
        jsonifyItems (fun reading => clock (reading + 1)) rest

/-- `_jsonify` of an import task. -/
def jsonifyTask (clock : Nat → Int) (task : ImportTask) : PyValue :=
  toJsonSafe (.mapping (bodyStart isoformat eventType (clock 0) ++
    [("choice_flag", (task.choiceFlag.map fun name =>
        PyValue.enumMember (Utf8.ofString name)).getD .null),
      ("source_paths", .sequence ((task.paths.getD []).map PyValue.bytes)),
      ("imported_items", .sequence (jsonifyItems isoformat eventType
        (fun reading => clock (reading + 1)) task.importedItems))]))

end

@[simp] theorem toJsonSafeEntries_eq (entries : List (String × PyValue)) :
    toJsonSafeEntries entries =
      entries.map fun entry => (entry.1, toJsonSafe entry.2) := by
  induction entries with
  | nil => rfl
  | cons entry rest ih =>
      rw [toJsonSafeEntries, ih, List.map_cons]

@[simp] theorem toJsonSafeValues_eq (values : List PyValue) :
    toJsonSafeValues values = values.map toJsonSafe := by
  induction values with
  | nil => rfl
  | cons value rest ih => rw [toJsonSafeValues, ih, List.map_cons]

mutual

theorem isJson_toJsonSafe : ∀ value : PyValue, (toJsonSafe value).isJson
  | .null | .bool _ | .int _ | .float _ | .str _ | .bytes _
  | .enumMember _ | .other _ => rfl
  | .mapping entries => entriesJson_toJsonSafe entries
  | .sequence values => valuesJson_toJsonSafe values

theorem entriesJson_toJsonSafe : ∀ entries : List (String × PyValue),
    PyValue.entriesJson (toJsonSafeEntries entries)
  | [] => rfl
  | (_, value) :: rest => by
      rw [toJsonSafeEntries, PyValue.entriesJson, isJson_toJsonSafe value,
        entriesJson_toJsonSafe rest, Bool.and_self]

theorem valuesJson_toJsonSafe : ∀ values : List PyValue,
    PyValue.valuesJson (toJsonSafeValues values)
  | [] => rfl
  | value :: rest => by
      rw [toJsonSafeValues, PyValue.valuesJson, isJson_toJsonSafe value,
        valuesJson_toJsonSafe rest, Bool.and_self]

end

mutual

/-- JSON is left as it is. -/
theorem toJsonSafe_of_isJson : ∀ value : PyValue, value.isJson →
    toJsonSafe value = value
  | .null, _ | .bool _, _ | .int _, _ | .float _, _ | .str _, _ => rfl
  | .bytes _, hjson | .enumMember _, hjson | .other _, hjson =>
      nomatch hjson
  | .mapping entries, hjson => by
      rw [toJsonSafe, toJsonSafeEntries_of_json entries hjson]
  | .sequence values, hjson => by
      rw [toJsonSafe, toJsonSafeValues_of_json values hjson]

theorem toJsonSafeEntries_of_json : ∀ entries : List (String × PyValue),
    PyValue.entriesJson entries → toJsonSafeEntries entries = entries
  | [], _ => rfl
  | (key, value) :: rest, hjson => by
      rw [PyValue.entriesJson, Bool.and_eq_true] at hjson
      rw [toJsonSafeEntries, toJsonSafe_of_isJson value hjson.1,
        toJsonSafeEntries_of_json rest hjson.2]

theorem toJsonSafeValues_of_json : ∀ values : List PyValue,
    PyValue.valuesJson values → toJsonSafeValues values = values
  | [], _ => rfl
  | value :: rest, hjson => by
      rw [PyValue.valuesJson, Bool.and_eq_true] at hjson
      rw [toJsonSafeValues, toJsonSafe_of_isJson value hjson.1,
        toJsonSafeValues_of_json rest hjson.2]

end

/-- A body is JSON already when it is part of a larger one. -/
theorem toJsonSafe_jsonifyItem (isoformat : AwareDatetime → Utf8.Text)
    (eventType : BeetsEventType) (now : Int) (item : BeetsItem) :
    toJsonSafe (jsonifyItem isoformat eventType now item) =
      jsonifyItem isoformat eventType now item :=
  toJsonSafe_of_isJson _ (isJson_toJsonSafe _)

end Beetkeeper
