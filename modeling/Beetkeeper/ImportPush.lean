/-
What becomes of the push of an import task: the plugin hands its paths over as
`os.fsdecode` reads them, the models take no lone surrogates, and the route
decodes what is left.
-/
import Mathlib.Logic.Encodable.Basic
import Beetkeeper.PluginClient
import Beetkeeper.EventRoutes

namespace Beetkeeper

/-- The plugin pushes an import task; nothing is sent when the body is not
JSON, and nothing recorded when the server refuses it. -/
def pushTask (pydantic : Pydantic) (clock : Nat → Int) (task : ImportTask)
    (db : EventsDb) : Option (MultiItemEventIngestResponse × EventsDb) :=
  if (jsonifyTask pydantic.isoformat .importTaskFiles clock task).isJson then
    db.postFilesystem pydantic
      (jsonifyTask pydantic.isoformat .importTaskFiles clock task)
  else none

/-- The row of an imported item. -/
def itemRow (listenerEventId : Nat) (item : BeetsItem) : TrackEvent :=
  ⟨listenerEventId, item.id, item.albumId, nonEmpty? item.title,
    nonEmpty? item.album⟩

/-- The push is accepted, and records the destination paths and the tracks of
the task. -/
def RecordsTask (pydantic : Pydantic) (clock : Nat → Int)
    (task : ImportTask) (db : EventsDb) : Prop :=
  ∃ response after, pushTask pydantic clock task db = some (response, after) ∧
    after.importDestinationPaths = db.importDestinationPaths ++
      ((task.importedItems.map fun item =>
          decodedPath item.path).filter (· ≠ "")).map
        (ImportDestinationPath.mk db.nextEventId) ∧
    after.trackEvents = db.trackEvents ++
      task.importedItems.map (itemRow db.nextEventId)

/-- Every source path and every item path is UTF-8. -/
def ImportTask.PathsValid (task : ImportTask) : Prop :=
  (∀ path ∈ task.paths.getD [], Utf8.Valid path) ∧
    ∀ item ∈ task.importedItems, Utf8.Valid item.path

instance (task : ImportTask) : Decidable task.PathsValid := by
  unfold ImportTask.PathsValid
  infer_instance

section

variable {pydantic : Pydantic}

@[simp] theorem str_ofString (text : String) :
    pydantic.str (.str (Utf8.ofString text)) = some text := by
  rw [pydantic.str_str, Utf8.ofString, Utf8.scalars?_map_scalar,
    Option.map_some, String.ofList_toList]

@[simp] theorem eventType_value (eventType : BeetsEventType) :
    pydantic.eventType (.str (Utf8.ofString eventType.value)) =
      some eventType := by
  rw [Pydantic.eventType, str_ofString, Option.bind_some]
  cases eventType <;> rfl

/-- A path that is no UTF-8 is no text for the models. -/
theorem str_fsdecode (path : List UInt8) :
    pydantic.str (.str (Utf8.fsdecode path)) =
      if Utf8.Valid path then some (decodedPath path) else none := by
  rw [pydantic.str_str]
  cases hscalars : Utf8.scalars? (Utf8.fsdecode path) with
  | none =>
      rw [if_neg]
      · rfl
      · rw [Utf8.valid_iff_scalars?, hscalars]
        exact Bool.false_ne_true
  | some chars =>
      have hpath := Utf8.scalars?_fsdecode.mp hscalars
      rw [if_pos ⟨chars, hpath⟩, ← hpath, decodedPath, Utf8.decodeReplace,
        Utf8.decode_encode, List.map_id, Option.map_some]

theorem bytes_fsdecode (path : List UInt8) :
    pydantic.bytes (.str (Utf8.fsdecode path)) =
      if Utf8.Valid path then some path else none := by
  rw [pydantic.bytes_str, Utf8.encode_scalars?_fsdecode]

theorem accepts_of_holds {kind : FieldKind} {value : PyValue}
    (hholds : kind.Holds value) :
    pydantic.accepts kind (toJsonSafe value) = true := by
  cases kind <;> cases value <;>
    simp_all [FieldKind.Holds, Pydantic.accepts, Pydantic.orNone, toJsonSafe,
      pydantic.str_str, pydantic.int_int, pydantic.float_float,
      pydantic.float_int, pydantic.list_sequence, pydantic.bool_bool]

/-- The fields of an item as they are sent. -/
def BeetsItem.sentFields (item : BeetsItem) : List (String × PyValue) :=
  toJsonSafeEntries (modelFields item.fields)

/-- The unset fields are left out. -/
def BeetsItem.sentOthers (item : BeetsItem) : List (String × PyValue) :=
  toJsonSafeEntries (modelFields item.others)

theorem sentFields_eq (item : BeetsItem) :
    item.sentFields = ("id", .int item.id) ::
      ((item.albumId.map fun albumId => ("album_id", .int albumId)).toList ++
        ("album", .str (Utf8.ofString item.album)) ::
        ("title", .str (Utf8.ofString item.title)) ::
        ("path", .str (Utf8.fsdecode item.path)) :: item.sentOthers) := by
  cases halbum : item.albumId with
  | none => simp [BeetsItem.sentFields, BeetsItem.sentOthers, modelFields,
      BeetsItem.fields, halbum, PyValue.isNull, toJsonSafe]
  | some albumId => simp [BeetsItem.sentFields, BeetsItem.sentOthers,
      modelFields, BeetsItem.fields, halbum, PyValue.isNull, toJsonSafe]

theorem lookup_sentOthers (item : BeetsItem) {name : String}
    (hname : name ∈ readTrackFields) : item.sentOthers.lookup name = none := by
  rw [List.lookup_eq_none_iff]
  intro entry hentry
  rw [BeetsItem.sentOthers, toJsonSafeEntries_eq, List.mem_map] at hentry
  obtain ⟨other, hother, rfl⟩ := hentry
  have hunread := item.others_unread other (List.mem_of_mem_filter hother)
  rw [bne_iff_ne]
  rintro rfl
  exact hunread hname

theorem unreadTrackFields_lookup : ∀ name ∈ readTrackFields,
    unreadTrackFields.lookup name = none := by decide

theorem read_or_mem_others {item : BeetsItem} {field : String × PyValue}
    (hfield : field ∈ item.fields) :
    field.1 ∈ readTrackFields ∨ field ∈ item.others := by
  simp only [BeetsItem.fields, List.mem_cons] at hfield
  rcases hfield with rfl | rfl | rfl | rfl | rfl | hother
  · exact Or.inl (by simp [readTrackFields])
  · exact Or.inl (by simp [readTrackFields])
  · exact Or.inl (by simp [readTrackFields])
  · exact Or.inl (by simp [readTrackFields])
  · exact Or.inl (by simp [readTrackFields])
  · exact Or.inr hother

/-- The fields no route reads are of the types the model wants. -/
theorem acceptsUnread_sentFields (item : BeetsItem) :
    pydantic.acceptsUnread unreadTrackFields item.sentFields = true := by
  rw [Pydantic.acceptsUnread, List.all_eq_true]
  intro entry hentry
  rw [BeetsItem.sentFields, toJsonSafeEntries_eq, List.mem_map] at hentry
  obtain ⟨field, hfield, rfl⟩ := hentry
  obtain ⟨hmem, hset⟩ := List.mem_filter.mp hfield
  cases hkind : unreadTrackFields.lookup field.1 with
  | none => rfl
  | some kind =>
      rcases read_or_mem_others hmem with hread | hother
      · rw [unreadTrackFields_lookup _ hread] at hkind
        cases hkind
      · rcases item.others_typed field hother kind hkind with hnull | hholds
        · rw [hnull] at hset
          cases hset
        · exact accepts_of_holds hholds

def BeetsItem.track (item : BeetsItem) : APITrack :=
  ⟨item.id, item.album, item.albumId, item.path, item.title⟩

/-- An item without an album has no album id in its fields. -/
theorem albumId_sentFields (item : BeetsItem) :
    defaulted (Pydantic.orNone pydantic.int) none "album_id"
      item.sentFields = some item.albumId := by
  have hothers := lookup_sentOthers item (by decide : "album_id" ∈ _)
  rw [sentFields_eq]
  cases item.albumId with
  | none => simp [defaulted, List.lookup_cons, hothers]
  | some albumId => simp [defaulted, List.lookup_cons, Pydantic.orNone,
      pydantic.int_int]

/-- A path that is no UTF-8 costs the item. -/
theorem validate_sentFields (item : BeetsItem) :
    APITrack.validate pydantic (.mapping item.sentFields) =
      if Utf8.Valid item.path then some item.track else none := by
  have hid : item.sentFields.lookup "id" = some (.int item.id) := by
    rw [sentFields_eq, List.lookup_cons_self]
  have halbum : item.sentFields.lookup "album" =
      some (.str (Utf8.ofString item.album)) := by
    rw [sentFields_eq]
    cases item.albumId <;> simp [List.lookup_cons]
  have htitle : item.sentFields.lookup "title" =
      some (.str (Utf8.ofString item.title)) := by
    rw [sentFields_eq]
    cases item.albumId <;> simp [List.lookup_cons]
  have hpath : item.sentFields.lookup "path" =
      some (.str (Utf8.fsdecode item.path)) := by
    rw [sentFields_eq]
    cases item.albumId <;> simp [List.lookup_cons]
  simp only [APITrack.validate, required_of_lookup hid,
    defaulted_of_lookup halbum, defaulted_of_lookup htitle,
    defaulted_of_lookup hpath, albumId_sentFields, acceptsUnread_sentFields,
    pydantic.int_int, str_ofString, bytes_fsdecode, ↓reduceIte,
    Option.bind_eq_bind, Option.bind_some]
  by_cases hvalid : Utf8.Valid item.path
  · simp only [if_pos hvalid, Option.bind_some]
    rfl
  · simp only [if_neg hvalid, Option.bind_none]

theorem validate_jsonifyItem (eventType : BeetsEventType) (now : Int)
    (item : BeetsItem) :
    TrackEventBody.validate pydantic
        (jsonifyItem pydantic.isoformat eventType now item) =
      if Utf8.Valid item.path then
        some ⟨eventType, ⟨now, 0⟩, item.track⟩
      else none := by
  have hbody : jsonifyItem pydantic.isoformat eventType now item =
      .mapping [("event_type", .str (Utf8.ofString eventType.value)),
        ("pushed_at", .str (pydantic.isoformat ⟨now, 0⟩)),
        ("track_fields", .mapping item.sentFields)] := by
    simp [jsonifyItem, bodyStart, toJsonSafe, BeetsItem.sentFields]
  rw [hbody]
  by_cases hvalid : Utf8.Valid item.path
  · simp [TrackEventBody.validate, required, List.lookup_cons,
      pydantic.awareDatetime_isoformat, validate_sentFields, hvalid]
  · simp [TrackEventBody.validate, required, List.lookup_cons,
      pydantic.awareDatetime_isoformat, validate_sentFields, hvalid]

end

/-- One bad value costs the list. -/
theorem mapM_cons_eq_ite {A B : Type} {read : A → Option B} {a : A}
    {rest : List A} {b : B} {more : List B} {p q : Prop} [Decidable p]
    [Decidable q] (hhead : read a = if p then some b else none)
    (hrest : rest.mapM read = if q then some more else none) :
    (a :: rest).mapM read = if p ∧ q then some (b :: more) else none := by
  rw [List.mapM_cons, hhead, hrest]
  by_cases hp : p
  · by_cases hq : q
    · rw [if_pos hp, if_pos hq, if_pos ⟨hp, hq⟩]
      rfl
    · rw [if_pos hp, if_neg hq, if_neg fun hboth : p ∧ q => hq hboth.2]
      rfl
  · rw [if_neg hp, if_neg fun hboth : p ∧ q => hp hboth.1]
    rfl

section

variable {pydantic : Pydantic}

theorem mapM_str_fsdecode (paths : List (List UInt8)) :
    (paths.map fun path => PyValue.str (Utf8.fsdecode path)).mapM
        pydantic.str =
      if ∀ path ∈ paths, Utf8.Valid path then some (paths.map decodedPath)
      else none := by
  induction paths with
  | nil => rfl
  | cons path rest ih =>
      rw [List.map_cons, mapM_cons_eq_ite (str_fsdecode path) ih]
      simp only [List.forall_mem_cons, List.map_cons]

/-- The items of a body as the server reads them. -/
def itemBodies (eventType : BeetsEventType) (clock : Nat → Int) :
    List BeetsItem → List TrackEventBody
  | [] => []
  | item :: rest =>
      ⟨eventType, ⟨clock 0, 0⟩, item.track⟩ ::
        itemBodies eventType (fun reading => clock (reading + 1)) rest

theorem mapM_validate_jsonifyItems (eventType : BeetsEventType)
    (clock : Nat → Int) (items : List BeetsItem) :
    (jsonifyItems pydantic.isoformat eventType clock items).mapM
        (TrackEventBody.validate pydantic) =
      if ∀ item ∈ items, Utf8.Valid item.path then
        some (itemBodies eventType clock items)
      else none := by
  induction items generalizing clock with
  | nil => rfl
  | cons item rest ih =>
      rw [jsonifyItems,
        mapM_cons_eq_ite (validate_jsonifyItem eventType _ item) (ih _)]
      simp only [List.forall_mem_cons, itemBodies]

/-- Items are JSON already when their task is turned into JSON. -/
theorem map_toJsonSafe_jsonifyItems (eventType : BeetsEventType)
    (clock : Nat → Int) (items : List BeetsItem) :
    (jsonifyItems pydantic.isoformat eventType clock items).map toJsonSafe =
      jsonifyItems pydantic.isoformat eventType clock items := by
  induction items generalizing clock with
  | nil => rfl
  | cons item rest ih =>
      rw [jsonifyItems, List.map_cons, toJsonSafe_jsonifyItem, ih]

/-- The body of a task as the server reads it. -/
def taskBody (eventType : BeetsEventType) (clock : Nat → Int)
    (task : ImportTask) : ImportTaskFilesEventBody :=
  ⟨eventType, ⟨clock 0, 0⟩, task.choiceFlag,
    (task.paths.getD []).map decodedPath,
    itemBodies eventType (fun reading => clock (reading + 1))
      task.importedItems⟩

/-- What is sent for a task. -/
theorem jsonifyTask_eq (eventType : BeetsEventType) (clock : Nat → Int)
    (task : ImportTask) :
    jsonifyTask pydantic.isoformat eventType clock task =
      .mapping [("event_type", .str (Utf8.ofString eventType.value)),
        ("pushed_at", .str (pydantic.isoformat ⟨clock 0, 0⟩)),
        ("choice_flag", (task.choiceFlag.map fun name =>
          PyValue.str (Utf8.ofString name)).getD .null),
        ("source_paths", .sequence ((task.paths.getD []).map fun path =>
          PyValue.str (Utf8.fsdecode path))),
        ("imported_items", .sequence (jsonifyItems pydantic.isoformat
          eventType (fun reading => clock (reading + 1))
          task.importedItems))] := by
  cases hchoice : task.choiceFlag <;>
    simp [jsonifyTask, bodyStart, toJsonSafe, hchoice,
      map_toJsonSafe_jsonifyItems]

theorem validate_jsonifyTask (eventType : BeetsEventType)
    (clock : Nat → Int) (task : ImportTask) :
    ImportTaskFilesEventBody.validate pydantic
        (jsonifyTask pydantic.isoformat eventType clock task) =
      if task.PathsValid then some (taskBody eventType clock task)
      else none := by
  have hchoice : Pydantic.orNone pydantic.str ((task.choiceFlag.map
      fun name => PyValue.str (Utf8.ofString name)).getD .null) =
      some task.choiceFlag := by
    cases task.choiceFlag with
    | none => rfl
    | some name => simp [Pydantic.orNone]
  have hread : ImportTaskFilesEventBody.validate pydantic
      (jsonifyTask pydantic.isoformat eventType clock task) =
      (((task.paths.getD []).map fun path =>
          PyValue.str (Utf8.fsdecode path)).mapM pydantic.str).bind
        fun sourcePaths =>
          ((jsonifyItems pydantic.isoformat eventType
              (fun reading => clock (reading + 1)) task.importedItems).mapM
            (TrackEventBody.validate pydantic)).bind
          fun importedItems => some ⟨eventType, ⟨clock 0, 0⟩,
            task.choiceFlag, sourcePaths, importedItems⟩ := by
    rw [jsonifyTask_eq]
    simp [ImportTaskFilesEventBody.validate, required, defaulted,
      List.lookup_cons, pydantic.awareDatetime_isoformat, hchoice,
      listOf_sequence]
  rw [hread, mapM_str_fsdecode, mapM_validate_jsonifyItems]
  by_cases hpaths : ∀ path ∈ task.paths.getD [], Utf8.Valid path
  · by_cases hitems : ∀ item ∈ task.importedItems, Utf8.Valid item.path
    · have hvalid : task.PathsValid := ⟨hpaths, hitems⟩
      rw [if_pos hpaths, if_pos hitems, if_pos hvalid]
      rfl
    · have hvalid : ¬ task.PathsValid := fun hboth => hitems hboth.2
      rw [if_pos hpaths, if_neg hitems, if_neg hvalid]
      rfl
  · have hvalid : ¬ task.PathsValid := fun hboth => hpaths hboth.1
    rw [if_neg hpaths, if_neg hvalid]
    rfl

/-- The server takes the push of a task exactly if its paths are valid. -/
theorem pushTask_eq (clock : Nat → Int) (task : ImportTask) (db : EventsDb) :
    pushTask pydantic clock task db =
      if task.PathsValid then
        some (db.filesystem (taskBody .importTaskFiles clock task))
      else none := by
  have hjson : (jsonifyTask pydantic.isoformat .importTaskFiles clock
      task).isJson := isJson_toJsonSafe _
  rw [pushTask, if_pos hjson, EventsDb.postFilesystem, validate_jsonifyTask]
  by_cases hvalid : task.PathsValid
  · rw [if_pos hvalid, if_pos hvalid, Option.map_some]
  · rw [if_neg hvalid, if_neg hvalid, Option.map_none]

end

theorem map_itemBodies {A : Type} (f : APITrack → A)
    (eventType : BeetsEventType) (clock : Nat → Int)
    (items : List BeetsItem) :
    (itemBodies eventType clock items).map (fun body => f body.trackFields) =
      items.map fun item => f item.track := by
  induction items generalizing clock with
  | nil => rfl
  | cons item rest ih => rw [itemBodies, List.map_cons, ih, List.map_cons]

/-- The push of an import task is accepted, with every destination path and
every track recorded, exactly if every source path and every item path is
valid UTF-8. -/
theorem task_is_recorded_iff (pydantic : Pydantic) (clock : Nat → Int)
    (task : ImportTask) (db : EventsDb) :
    RecordsTask pydantic clock task db ↔ task.PathsValid := by
  constructor
  · rintro ⟨response, after, hpush, _⟩
    rw [pushTask_eq] at hpush
    by_contra hvalid
    rw [if_neg hvalid] at hpush
    cases hpush
  · intro hvalid
    refine ⟨_, _, (pushTask_eq clock task db).trans (if_pos hvalid), ?_, ?_⟩
    · have hpaths := map_itemBodies (fun track => decodedPath track.path)
        .importTaskFiles (fun reading => clock (reading + 1))
        task.importedItems
      exact congrArg (fun paths : List String =>
        db.importDestinationPaths ++ (paths.filter (· ≠ "")).map
          (ImportDestinationPath.mk db.nextEventId)) hpaths
    · have hrows := map_itemBodies (fun track => trackEventRow
          db.nextEventId ⟨.importTaskFiles, ⟨0, 0⟩, track⟩)
        .importTaskFiles (fun reading => clock (reading + 1))
        task.importedItems
      exact congrArg (db.trackEvents ++ ·) hrows

/-- The first time there is, as `datetime.isoformat` writes it. -/
def epochText : Utf8.Text := Utf8.ofString "1970-01-01T00:00:00+00:00"

/-- Takes what is of the type of a field and nothing else; times other than
the first one are written as their number. -/
def strictPydantic : Pydantic where
  int
    | .int value => some value
    | _ => none
  float
    | .float value => some value
    | .int value => some value
    | _ => none
  str
    | .str text => (Utf8.scalars? text).map String.ofList
    | _ => none
  bytes
    | .str text => (Utf8.scalars? text).map Utf8.encode
    | _ => none
  list
    | .sequence values => some values
    | _ => none
  bool
    | .bool value => some value
    | _ => none
  awareDatetime
    | .str text =>
        if text = epochText then some ⟨0, 0⟩
        else (Encodable.decode text.length).map fun (wall, offset) =>
          ⟨wall, offset⟩
    | _ => none
  isoformat time :=
    if time = ⟨0, 0⟩ then epochText
    else List.replicate (Encodable.encode (time.wall, time.offset))
      (.scalar '0')
  int_int _ := rfl
  float_float _ := rfl
  float_int _ := rfl
  str_str _ := rfl
  bytes_str _ := rfl
  list_sequence _ := rfl
  bool_bool _ := rfl
  awareDatetime_isoformat time := by
    by_cases htime : time = ⟨0, 0⟩
    · simp [htime]
    · have hdigits : List.replicate
          (Encodable.encode (time.wall, time.offset))
          (Utf8.CodePoint.scalar '0') ≠ epochText := by
        intro hsame
        have hone : Utf8.CodePoint.scalar '1' ∈ epochText := by decide
        rw [← hsame, List.mem_replicate] at hone
        exact absurd hone.2 (by decide)
      simp only [if_neg htime, if_neg hdigits, List.length_replicate,
        Encodable.encodek, Option.map_some]

def plainItem (path : List UInt8) : BeetsItem where
  id := 1
  albumId := none
  album := ""
  title := "Untitled"
  path := path
  others := []
  others_unread := nofun
  others_typed := nofun

def emptyEvents : EventsDb := ⟨[], [], [], [], []⟩

example : pushTask strictPydantic (fun _ => 0)
    ⟨some "APPLY", some [[0x69]], [plainItem [0x6d]]⟩ emptyEvents =
      some (⟨.importTaskFiles, [⟨.importTaskFiles, some 1, none⟩]⟩,
        ⟨[⟨1, .importTaskFiles, 0⟩], [], [⟨1, 1, none, some "Untitled", none⟩],
          [⟨1, "i"⟩], [⟨1, "m"⟩]⟩) := by decide

/-- One item whose name ends in the byte 0xff: the server refuses the push. -/
theorem bad_name_loses_push :
    ¬ RecordsTask strictPydantic (fun _ => 0)
      ⟨some "APPLY", some [[0x69]], [plainItem [0x6d, 0xff]]⟩
      emptyEvents := by
  rintro ⟨response, after, hpush, _⟩
  have hrefused : pushTask strictPydantic (fun _ => 0)
      ⟨some "APPLY", some [[0x69]], [plainItem [0x6d, 0xff]]⟩
      emptyEvents = none := by decide
  rw [hrefused] at hpush
  cases hpush

end Beetkeeper
