/-
Asking the downloader where an entry came from: the query made of the entry's
fields, the answer that is stored, and the cell of the search page that shows
it.  Clean slates move what was stored; all of it goes back to an answer.
-/
import Beetkeeper.DownloaderHook
import Beetkeeper.InferenceFollow
import Beetkeeper.CleanSlateLink

namespace Beetkeeper

open Utf8 PyText

/-- `LibraryEntryRef`: exactly one of the two ids is there. -/
structure LibraryEntryRef where
  beetsAlbumId : Option Int
  beetsItemId : Option Int
  one : (beetsAlbumId.isSome ^^ beetsItemId.isSome) = true

namespace LibraryEntryRef

/-- `validate_mutually_exclusive_beets_ids`. -/
def validate : Option Int → Option Int → Except String LibraryEntryRef
  | none, none => .error ("Exactly 1 of 'beets_album_id' or " ++
      "'beets_item_id' must be set, but neither was provided.")
  | some _, some _ => .error ("Exactly 1 of 'beets_album_id' or " ++
      "'beets_item_id' must be set, but both were provided.")
  | some albumId, none => .ok ⟨some albumId, none, rfl⟩
  | none, some itemId => .ok ⟨none, some itemId, rfl⟩

variable (request : LibraryEntryRef)

def isAlbum : Bool := request.beetsAlbumId.isSome

def subject : CleanSlateSubject :=
  if request.isAlbum then .album else .track

theorem given : (if request.isAlbum then request.beetsAlbumId
    else request.beetsItemId).isSome = true := by
  have hone := request.one
  cases halbum : request.beetsAlbumId.isSome
  · rw [halbum, Bool.false_xor] at hone
    rwa [isAlbum, halbum]
  · rw [isAlbum, halbum]
    exact halbum

/-- `beets_id`: the one id that was provided. -/
def beetsId : Int :=
  (if request.isAlbum then request.beetsAlbumId
    else request.beetsItemId).get request.given

/-- The entry a row of the inferences can be about; no entry has a negative
id. -/
def key? : Option InferenceKey :=
  request.beetsId.toNat?.map (Prod.mk request.subject)

end LibraryEntryRef

/-- A field of an entry: none, a text, or a value by what `str` makes of
it. -/
inductive FieldValue where
  | null
  | text (value : String)
  | other (shown : String)
deriving Repr, DecidableEq

/-- An entry of the library as a dictionary; `albumId` is a field of tracks. -/
structure LibraryEntry where
  albumId : Option Nat
  fields : List (String × FieldValue)
deriving Repr, DecidableEq

/-- What `get_albums` and `get_tracks` find under an id. -/
structure LibraryEntries where
  albums : Nat → Option LibraryEntry
  tracks : Nat → Option LibraryEntry

def LibraryEntries.get? (library : LibraryEntries) :
    InferenceKey → Option LibraryEntry
  | (.album, beetsId) => library.albums beetsId
  | (.track, beetsId) => library.tracks beetsId

/-- How the request to the downloader ends: an error status, no answer at all,
an answer that is no JSON, or a document. -/
inductive DownloaderAnswer where
  | httpStatusError (statusCode : Int) (error : String)
  | httpError (error : String)
  | notJson (statusCode : Int)
  | json (rawJson : PyValue) (statusCode : Int)

namespace DownloaderHook

variable (hook : DownloaderHook)

def enabled : Bool := hook.config.baseUrl.isSome

/-- The text a field is searched by; a blank one is left out. -/
def searchText : Option FieldValue → Option String
  | some (.text value) =>
      if strip value.toList = [] then none else some value
  | some (.other shown) => some shown
  | _ => none

/-- `query_params`; of the fields that go by one name the last one counts. -/
def queryParams (fields : List (String × FieldValue)) : StrDict :=
  hook.config.beetFieldToDlSearchField.foldl
    (fun params entry =>
      (searchText (fields.lookup entry.1)).elim params
        (StrDict.set params entry.2))
    []

/-- `search`, where `answer` is what becomes of the request. -/
def search (answer : StrDict → DownloaderAnswer) (params : StrDict) :
    DownloaderSearchResult :=
  if hook.enabled = false then
    { found := false, detail := "No downloader API is configured." }
  else if params = [] then
    { found := false
      detail := "The library entry has none of the configured fields." }
  else
    match answer params with
    | .httpStatusError statusCode error =>
        { found := false, statusCode := some statusCode
          detail := "Downloader API error: " ++ error }
    | .httpError error =>
        { found := false, detail := "Downloader API unreachable: " ++ error }
    | .notJson statusCode =>
        { found := false, statusCode := some statusCode
          detail := "Downloader API returned a non-JSON response." }
    | .json rawJson statusCode => hook.parse rawJson statusCode

/-- The text under the configured key. -/
def pathField? : PyValue → Option Text
  | .mapping entries =>
      match entries.lookup (hook.config.filepathJsonKey.getD "") with
      | some (.str (first :: rest)) => some (first :: rest)
      | _ => none
  | _ => none

/-- The path a document reports: that of its first result. -/
def reported? : PyValue → Option Text
  | .sequence values => values.head?.bind hook.pathField?
  | other => hook.pathField? other

end DownloaderHook

/-- `FindMissingSourcePathResponse`. -/
structure FindMissingSourcePathResponse where
  foundMatch : Bool
  searchStatusCode : Option Int
  sourceDirectory : Option String
  queryParams : StrDict
  detail : String
  recordedInference : Bool
deriving Repr, DecidableEq

/-- A path as the database takes it; a lone surrogate cannot be encoded. -/
def storable? (path : Text) : Option String :=
  (scalars? path).map String.ofList

/-- `from_search`; a path that cannot be encoded gets no response. -/
def FindMissingSourcePathResponse.fromSearch (result : DownloaderSearchResult)
    (queryParams : StrDict) (recordedInference : Bool) :
    FindMissingSourcePathResponse where
  foundMatch := result.found
  searchStatusCode := result.statusCode
  sourceDirectory := result.sourcePath.bind storable?
  queryParams := queryParams
  detail := result.detail
  recordedInference := recordedInference

/-- The exceptions of a lookup, both from the database. -/
inductive LookupError where
  | unicodeEncodeError
  | integrityError
deriving Repr, DecidableEq

/-- `find_missing_source_path`: the table it leaves, and the response; none
for an unknown entry. -/
def findMissingSourcePath (hook : DownloaderHook) (library : LibraryEntries)
    (answer : StrDict → DownloaderAnswer) (now : Int)
    (request : LibraryEntryRef) (table : InferenceTable) :
    InferenceTable ×
      Except LookupError (Option FindMissingSourcePathResponse) :=
  match request.key?.bind fun key => (library.get? key).map (Prod.mk key) with
  | none => (table, .ok none)
  | some (key, entry) =>
      let params := hook.queryParams entry.fields
      let result := hook.search answer params
      let response :=
        FindMissingSourcePathResponse.fromSearch result params result.found
      match result.found, result.sourcePath with
      | true, some sourcePath =>
          match storable? sourcePath with
          | none => (table, .error .unicodeEncodeError)
          | some path =>
              match recordInferredSourcePath table key.1 key.2 path params
                  now with
              | none => (table, .error .integrityError)
              | some after => (after, .ok (some response))
      | _, _ => (table, .ok (some response))

/-- The route `find_missing_source_path` of the API. -/
def postFindMissingSourcePath (hook : DownloaderHook)
    (library : LibraryEntries) (answer : StrDict → DownloaderAnswer)
    (now : Int) (request : LibraryEntryRef) (table : InferenceTable) :
    InferenceTable × Except LookupError
      (Except HttpError FindMissingSourcePathResponse) :=
  if hook.enabled = false then
    (table, .ok (.error ⟨409, "No downloader API is configured (see the " ++
      "`beetkeeper.downloader_hook` config section)."⟩))
  else
    match findMissingSourcePath hook library answer now request table with
    | (after, .error error) => (after, .error error)
    | (after, .ok none) =>
        let kind := if request.isAlbum then "album" else "item"
        (after, .ok (.error ⟨404,
          s!"No beets {kind} with id {request.beetsId}."⟩))
    | (after, .ok (some response)) => (after, .ok (.ok response))

/-- The cell of `source_path_lookup.html`; a match is shown with the link
below it. -/
inductive LookupCell where
  | entryNotFound
  | notConfigured
  | inferred (path : String) (link : List Char)
  | notFound (detail : String)
deriving Repr, DecidableEq

/-- The ids of the link in the cell: the album, also of a track that is in
one, or else the track. -/
def lookupTarget (later : LibraryEntries) (request : LibraryEntryRef) :
    Option Nat × Option Nat :=
  if request.isAlbum then (request.beetsId.toNat?, none)
  else
    let albumId := (request.key?.bind later.get?).bind LibraryEntry.albumId
    (albumId,
      if (givenId albumId).isSome then none else request.beetsId.toNat?)

/-- `source_path_lookup_fragment`; the track is read again, from `later`, for
the album it is in. -/
def sourcePathLookupFragment (hook : DownloaderHook)
    (library later : LibraryEntries) (answer : StrDict → DownloaderAnswer)
    (now : Int) (request : LibraryEntryRef) (table : InferenceTable) :
    InferenceTable × Except LookupError LookupCell :=
  match findMissingSourcePath hook library answer now request table with
  | (after, .error error) => (after, .error error)
  | (after, .ok none) => (after, .ok .entryNotFound)
  | (after, .ok (some response)) =>
      let target := lookupTarget later request
      -- what the template prints for none
      let path := response.sourceDirectory.getD "None"
      (after, .ok
        (if hook.enabled = false then .notConfigured
        else if response.foundMatch then
          .inferred path (cleanSlateLink path.toList target.1 target.2)
        else .notFound response.detail))

/-- The cell the results table shows on the next load. -/
def LookupCell.onNextLoad : LookupCell → SourceCell
  | .inferred path _ => .inferred path
  | _ => .notRecorded

/-- What the button in a row without sources asks for. -/
def SearchRow.lookupRequest (row : SearchRow) (albums : Bool) :
    LibraryEntryRef :=
  if albums then ⟨some row.id, none, rfl⟩ else ⟨none, some row.id, rfl⟩

namespace DownloaderHook

variable (hook : DownloaderHook)

theorem parse_eq (rawJson : PyValue) (statusCode : Int) :
    (hook.parse rawJson statusCode).found = (hook.reported? rawJson).isSome ∧
      (hook.parse rawJson statusCode).sourcePath =
        (hook.reported? rawJson).map fun path =>
          (hook.toLocalPath path).text := by
  have htop : ∀ top rest, hook.parse (.sequence (top :: rest)) statusCode =
      hook.parse (.sequence [top]) statusCode := fun _ _ => rfl
  have hone : ∀ top : PyValue,
      (hook.parse (.sequence [top]) statusCode).found =
          (hook.pathField? top).isSome ∧
        (hook.parse (.sequence [top]) statusCode).sourcePath =
          (hook.pathField? top).map fun path =>
            (hook.toLocalPath path).text := by
    intro top
    cases top with
    | mapping entries =>
        simp only [parse, pathField?]
        split
        · rename_i hnone
          rw [hnone]
          exact ⟨rfl, rfl⟩
        · rename_i first rest hsome
          rw [hsome]
          exact ⟨rfl, rfl⟩
        · rename_i value hother hsome
          rw [hsome]
          split
          · rename_i first rest hpath
            exact absurd (Option.some.inj hpath) (hother first rest)
          · exact ⟨rfl, rfl⟩
    | _ => exact ⟨rfl, rfl⟩
  cases rawJson with
  | sequence values =>
      cases values with
      | nil => exact ⟨rfl, rfl⟩
      | cons top rest =>
          rw [htop top rest]
          exact hone top
  | mapping entries => exact hone (.mapping entries)
  | _ => exact ⟨rfl, rfl⟩

/-- The path the downloader reports for a query, if it is asked at all. -/
def reportedFor? (answer : StrDict → DownloaderAnswer) (params : StrDict) :
    Option Text :=
  if hook.enabled = true ∧ params ≠ [] then
    match answer params with
    | .json rawJson _ => hook.reported? rawJson
    | _ => none
  else none

theorem enabled_of_reportedFor {answer : StrDict → DownloaderAnswer}
    {params : StrDict} {path : Text}
    (hreported : hook.reportedFor? answer params = some path) :
    hook.enabled = true := by
  rw [reportedFor?] at hreported
  split at hreported
  · rename_i hasked
    exact hasked.1
  · cases hreported

/-- A search finds what is reported, mapped to its place here. -/
theorem search_eq (answer : StrDict → DownloaderAnswer) (params : StrDict) :
    (hook.search answer params).found =
        (hook.reportedFor? answer params).isSome ∧
      (hook.search answer params).sourcePath =
        (hook.reportedFor? answer params).map fun path =>
          (hook.toLocalPath path).text := by
  by_cases hasked : hook.enabled = true ∧ params ≠ []
  · obtain ⟨henabled, hparams⟩ := hasked
    rw [search, if_neg (by simp [henabled]), if_neg hparams, reportedFor?,
      if_pos ⟨henabled, hparams⟩]
    cases answer params with
    | json rawJson statusCode => exact hook.parse_eq rawJson statusCode
    | _ => exact ⟨rfl, rfl⟩
  · rw [reportedFor?, if_neg hasked, search]
    by_cases henabled : hook.enabled = false
    · rw [if_pos henabled]
      exact ⟨rfl, rfl⟩
    · have hparams : params = [] := by
        by_contra hne
        exact hasked ⟨Bool.not_eq_false _ ▸ henabled, hne⟩
      rw [if_neg henabled, if_pos hparams]
      exact ⟨rfl, rfl⟩

end DownloaderHook

section Lookup

variable (hook : DownloaderHook) (library : LibraryEntries)
  (answer : StrDict → DownloaderAnswer) (request : LibraryEntryRef)

/-- What a lookup finds: the path the downloader reports for the entry's
fields, for an entry the library has. -/
def foundPath? : Option (InferenceKey × String) := do
  let key ← request.key?
  let entry ← library.get? key
  let reported ← hook.reportedFor? answer (hook.queryParams entry.fields)
  let path ← storable? (hook.toLocalPath reported).text
  some (key, path)

/-- A lookup stores what it finds, and nothing else changes. -/
theorem findMissingSourcePath_spec (now : Int) (table : InferenceTable) :
    let run := findMissingSourcePath hook library answer now request table
    (∃ key path response,
      foundPath? hook library answer request = some (key, path) ∧
      request.key? = some key ∧ hook.enabled = true ∧
      run.2 = .ok (some response) ∧ response.foundMatch = true ∧
      response.sourceDirectory = some path ∧
      ∀ other, run.1.paths other =
        if key = other then some path else table.paths other) ∨
    (foundPath? hook library answer request = none ∧ run.1 = table ∧
      ∀ response, run.2 = .ok (some response) →
        response.foundMatch = false) := by
  intro run
  have hrun : run = findMissingSourcePath hook library answer now request
      table := rfl
  cases hkey : request.key? with
  | none =>
      refine Or.inr ⟨by simp [foundPath?, hkey], ?_, ?_⟩
      · simp [hrun, findMissingSourcePath, hkey]
      · intro response hresponse
        simp [hrun, findMissingSourcePath, hkey] at hresponse
  | some key =>
      cases hentry : library.get? key with
      | none =>
          refine Or.inr ⟨by simp [foundPath?, hkey, hentry], ?_, ?_⟩
          · simp [hrun, findMissingSourcePath, hkey, hentry]
          · intro response hresponse
            simp [hrun, findMissingSourcePath, hkey, hentry] at hresponse
      | some entry =>
          obtain ⟨hfound, hsource⟩ :=
            hook.search_eq answer (hook.queryParams entry.fields)
          let params := hook.queryParams entry.fields
          cases hreported : hook.reportedFor? answer params with
          | none =>
              rw [hreported] at hfound hsource
              have hdone : run = (table, .ok (some (.fromSearch
                  (hook.search answer params) params false))) := by
                simp [hrun, findMissingSourcePath, hkey, hentry, hfound,
                  params]
              refine Or.inr ⟨by simp [foundPath?, hkey, hentry, hreported,
                params], by rw [hdone], ?_⟩
              intro response hresponse
              rw [hdone] at hresponse
              cases hresponse
              exact hfound
          | some reported =>
              rw [hreported] at hfound hsource
              cases hpath : storable? (hook.toLocalPath reported).text with
              | none =>
                  have hraised : run = (table, .error .unicodeEncodeError) := by
                    simp [hrun, findMissingSourcePath, hkey, hentry, hfound,
                      hsource, hpath]
                  refine Or.inr ⟨by simp [foundPath?, hkey, hentry, hreported,
                    hpath, params], by rw [hraised], ?_⟩
                  intro response hresponse
                  rw [hraised] at hresponse
                  cases hresponse
              | some path =>
                  obtain ⟨after, hafter⟩ :=
                    exists_record table key.1 key.2 path params now
                  have hstored : run = (after, .ok (some (.fromSearch
                      (hook.search answer params) params true))) := by
                    simp [hrun, findMissingSourcePath, hkey, hentry, hfound,
                      hsource, hpath, hafter, params]
                  refine Or.inl ⟨key, path, _, by simp [foundPath?, hkey,
                    hentry, hreported, hpath, params], rfl, ?_,
                    congrArg Prod.snd hstored, hfound, ?_, ?_⟩
                  · exact hook.enabled_of_reportedFor hreported
                  · rw [FindMissingSourcePathResponse.fromSearch, hsource]
                    exact hpath
                  · rw [hstored]
                    exact paths_record hafter

theorem paths_find (now : Int) (table : InferenceTable)
    (other : InferenceKey) :
    (findMissingSourcePath hook library answer now request table).1.paths
        other =
      match foundPath? hook library answer request with
      | some (key, path) => if key = other then some path else table.paths other
      | none => table.paths other := by
  rcases findMissingSourcePath_spec hook library answer request now table with
    ⟨key, path, _, hfound, _, _, _, _, _, hpaths⟩ | ⟨hnone, hsame, _⟩
  · rw [hfound]
    exact hpaths other
  · rw [hnone, hsame]

/-- Both routes leave the table of the lookup. -/
theorem fst_sourcePathLookupFragment (later : LibraryEntries) (now : Int)
    (table : InferenceTable) :
    (sourcePathLookupFragment hook library later answer now request table).1 =
      (findMissingSourcePath hook library answer now request table).1 := by
  rw [sourcePathLookupFragment]
  split
  · rename_i hrun
    rw [hrun]
  · rename_i hrun
    rw [hrun]
  · rename_i hrun
    rw [hrun]

theorem fst_postFindMissingSourcePath (now : Int) (table : InferenceTable) :
    (postFindMissingSourcePath hook library answer now request table).1 =
      (findMissingSourcePath hook library answer now request table).1 := by
  by_cases hdisabled : hook.enabled = false
  · rw [postFindMissingSourcePath, if_pos hdisabled]
    rcases findMissingSourcePath_spec hook library answer request now table
      with ⟨_, _, _, _, _, henabled, _⟩ | ⟨_, hsame, _⟩
    · rw [hdisabled] at henabled
      cases henabled
    · exact hsame.symm
  · rw [postFindMissingSourcePath, if_neg hdisabled]
    split
    · rename_i hrun
      rw [hrun]
    · rename_i hrun
      rw [hrun]
    · rename_i hrun
      rw [hrun]

end Lookup

/-- What writes the table: lookups, from the API and from the search page, and
jobs that are done with a clean slate. -/
inductive InferenceAction where
  | post (library : LibraryEntries) (answer : StrDict → DownloaderAnswer)
      (now : Int) (request : LibraryEntryRef)
  | press (library later : LibraryEntries)
      (answer : StrDict → DownloaderAnswer) (now : Int)
      (request : LibraryEntryRef)
  | finish (removed : RemovedEntry) (result : ImportRunResult)

namespace InferenceAction

variable (hook : DownloaderHook)

def step (table : InferenceTable) : InferenceAction → InferenceTable
  | post library answer now request =>
      (postFindMissingSourcePath hook library answer now request table).1
  | press library later answer now request =>
      (sourcePathLookupFragment hook library later answer now request table).1
  | finish removed result => retargetInferences table removed result

/-- The entry an action finds a path for, and the path. -/
def finds? : InferenceAction → Option (InferenceKey × String)
  | post library answer _ request => foundPath? hook library answer request
  | press library _ answer _ request => foundPath? hook library answer request
  | finish _ _ => none

end InferenceAction

/-- The key of an entry that a clean slate removed. -/
def RemovedEntry.key (removed : RemovedEntry) : InferenceKey :=
  (removed.target.subject, removed.target.beetsId)

/-- The entries that came in the place of the first: while nothing is found
for an entry it stays, and a clean slate puts the one entry it imported in its
place. -/
inductive Succession (hook : DownloaderHook) :
    List InferenceAction → InferenceKey → InferenceKey → Prop
  | refl (key : InferenceKey) : Succession hook [] key key
  | kept {actions : List InferenceAction} {first key : InferenceKey}
      {action : InferenceAction} (before : Succession hook actions first key)
      (quiet : ∀ path, action.finds? hook ≠ some (key, path)) :
      Succession hook (actions ++ [action]) first key
  | replaced {actions : List InferenceAction} {first : InferenceKey}
      {removed : RemovedEntry} {result : ImportRunResult} {id : Nat}
      (before : Succession hook actions first removed.key)
      (imported : onlyId (result.idsFor removed.target.subject) = some id) :
      Succession hook (actions ++ [.finish removed result]) first
        (removed.target.subject, id)

section History

variable {hook : DownloaderHook} {table : InferenceTable}
  {key : InferenceKey} {path : String}

/-- A path under a key after a job was there before, or under the key of the
entry the job removed. -/
theorem paths_finish {removed : RemovedEntry} {result : ImportRunResult}
    (hpath : (retargetInferences table removed result).paths key = some path) :
    table.paths key = some path ∨
      ∃ id, onlyId (result.idsFor removed.target.subject) = some id ∧
        key = (removed.target.subject, id) ∧
        table.paths removed.key = some path := by
  have hstale : ∀ row, (dropStaleTracks table removed.target.subject
      removed.target.beetsId removed.itemIds).get? key = some row →
        table.get? key = some row := by
    intro row hrow
    rw [get?_dropStaleTracks] at hrow
    split at hrow
    · cases hrow
    · exact hrow
  let newId := onlyId (result.idsFor removed.target.subject)
  obtain ⟨row, hrow, rfl⟩ := Option.map_eq_some_iff.mp hpath
  cases hold : table.get? removed.key with
  | none =>
      rw [retargetInferences, retarget_of_absent table removed.target.subject
        removed.target.beetsId removed.itemIds newId hold] at hrow
      exact Or.inl (Option.map_eq_some_iff.mpr ⟨row, hstale row hrow, rfl⟩)
  | some old =>
      obtain ⟨after, hafter, hget⟩ := retarget_of_present table
        removed.target.subject removed.target.beetsId removed.itemIds newId
        hold
      rw [retargetInferences, hafter, Option.getD_some, hget] at hrow
      split at hrow
      · rename_i hnew
        obtain ⟨id, hid, rfl⟩ := Option.map_eq_some_iff.mp hnew
        refine Or.inr ⟨id, hid, rfl, Option.map_eq_some_iff.mpr ⟨old, hold, ?_⟩⟩
        rw [← Option.some.inj hrow]
      · split at hrow
        · cases hrow
        · exact Or.inl (Option.map_eq_some_iff.mpr ⟨row, hstale row hrow, rfl⟩)

theorem paths_step {action : InferenceAction}
    (hpath : (action.step hook table).paths key = some path) :
    action.finds? hook = some (key, path) ∨
    (table.paths key = some path ∧
      ∀ other, action.finds? hook ≠ some (key, other)) ∨
    ∃ removed result id, action = .finish removed result ∧
      onlyId (result.idsFor removed.target.subject) = some id ∧
      key = (removed.target.subject, id) ∧
      table.paths removed.key = some path := by
  have hlookup : ∀ found : Option (InferenceKey × String),
      (match found with
        | some (asked, other) =>
            if asked = key then some other else table.paths key
        | none => table.paths key) = some path →
      found = some (key, path) ∨
        (table.paths key = some path ∧
          ∀ other, found ≠ some (key, other)) := by
    intro found hfound
    cases found with
    | none => exact Or.inr ⟨hfound, fun _ => (Option.some_ne_none _).symm⟩
    | some entry =>
        by_cases hasked : entry.1 = key
        · subst hasked
          simp only [if_true] at hfound
          exact Or.inl (congrArg (some ∘ Prod.mk entry.1)
            (Option.some.inj hfound))
        · simp only [if_neg hasked] at hfound
          refine Or.inr ⟨hfound, fun other hother => hasked ?_⟩
          rw [Option.some.inj hother]
  cases action with
  | post library answer now request =>
      rw [InferenceAction.step, fst_postFindMissingSourcePath,
        paths_find] at hpath
      exact (hlookup _ hpath).imp_right Or.inl
  | press library later answer now request =>
      rw [InferenceAction.step, fst_sourcePathLookupFragment,
        paths_find] at hpath
      exact (hlookup _ hpath).imp_right Or.inl
  | finish removed result =>
      rcases paths_finish hpath with hkept | ⟨id, hone, hkey, hmoved⟩
      · exact Or.inr (Or.inl ⟨hkept, fun _ => (Option.some_ne_none _).symm⟩)
      · exact Or.inr (Or.inr ⟨removed, result, id, rfl, hone, hkey, hmoved⟩)

/-- Every path in the table was found for an entry by asking the downloader,
nothing was found since, and the entry that has it now came in the place of
that one. -/
theorem inferences_come_from_lookups (hook : DownloaderHook)
    (actions : List InferenceAction) (key : InferenceKey) (path : String)
    (hpath : (actions.foldl (InferenceAction.step hook)
      KeyedTable.empty).paths key = some path) :
    ∃ earlier lookup later asked, actions = earlier ++ lookup :: later ∧
      lookup.finds? hook = some (asked, path) ∧
      Succession hook later asked key := by
  induction actions using List.reverseRecOn generalizing key with
  | nil => cases hpath
  | append_singleton actions action ih =>
      rw [List.foldl_append] at hpath
      rcases paths_step hpath with hfinds | ⟨hkept, hquiet⟩ |
        ⟨removed, result, id, rfl, hone, rfl, hmoved⟩
      · exact ⟨actions, action, [], key, rfl, hfinds, .refl key⟩
      · obtain ⟨earlier, lookup, later, asked, rfl, hfinds, hbefore⟩ :=
          ih key hkept
        refine ⟨earlier, lookup, later ++ [action], asked, ?_, hfinds,
          hbefore.kept hquiet⟩
        rw [List.append_assoc, List.cons_append]
      · obtain ⟨earlier, lookup, later, asked, rfl, hfinds, hbefore⟩ :=
          ih removed.key hmoved
        refine ⟨earlier, lookup, later ++ [.finish removed result], asked, ?_,
          hfinds, hbefore.replaced hone⟩
        rw [List.append_assoc, List.cons_append]

end History

/-- A downloader that keeps its downloads in `/data`. -/
def dataHook : DownloaderHook where
  config := ⟨some "http://dl", some "/search", [("album", "q")], some "path",
    "/data", none⟩
  downloadsPath := .ofText (Utf8.ofString "/dl")

/-- A library with one album. -/
def oneAlbum : LibraryEntries where
  albums id := if id = 1 then some ⟨none, [("album", .text "Geogaddi")]⟩
    else none
  tracks _ := none

/-- The downloader knows the album by its title. -/
def knowsGeogaddi (params : StrDict) : DownloaderAnswer :=
  if params = [("q", "Geogaddi")] then
    .json (.sequence [.mapping [("path", .str (Utf8.ofString "/data/G"))]]) 200
  else .json (.sequence []) 200

/-- The album is looked up, and then replaced by a clean slate. -/
def replacedAlbum : List InferenceAction :=
  [.post oneAlbum knowsGeogaddi 0 ⟨some 1, none, rfl⟩,
    .finish ⟨⟨.album, 1⟩, [5], [], [], none⟩ ⟨none, [7], [8]⟩]

theorem inferences_come_from_lookups_replaced :
    ∃ earlier lookup later asked,
      replacedAlbum = earlier ++ lookup :: later ∧
      lookup.finds? dataHook = some (asked, "/dl/G") ∧
      Succession dataHook later asked (.album, 7) :=
  inferences_come_from_lookups dataHook replacedAlbum (.album, 7) "/dl/G"
    (by decide)

section Cell

variable {hook : DownloaderHook} {library later : LibraryEntries}
  {answer : StrDict → DownloaderAnswer} {now : Int}
  {request : LibraryEntryRef} {table after : InferenceTable}
  {cell : LookupCell}

/-- The cell shows what was stored, or nothing was. -/
theorem sourcePathLookupFragment_spec
    (hlookup : sourcePathLookupFragment hook library later answer now request
      table = (after, .ok cell)) :
    (∃ key path, request.key? = some key ∧
      cell = .inferred path (cleanSlateLink path.toList
        (lookupTarget later request).1 (lookupTarget later request).2) ∧
      ∀ other, after.paths other =
        if key = other then some path else table.paths other) ∨
    (after = table ∧ cell.onNextLoad = .notRecorded) := by
  have hafter : after =
      (findMissingSourcePath hook library answer now request table).1 := by
    rw [← fst_sourcePathLookupFragment hook library answer request later now
      table, hlookup]
  rcases findMissingSourcePath_spec hook library answer request now table with
    ⟨key, path, response, _, hkey, henabled, hrun, hmatch, hpath, hpaths⟩ |
    ⟨_, hsame, hquiet⟩
  · refine Or.inl ⟨key, path, hkey, ?_, hafter ▸ hpaths⟩
    have hfind : findMissingSourcePath hook library answer now request table =
        (after, .ok (some response)) := Prod.ext hafter.symm hrun
    rw [sourcePathLookupFragment, hfind] at hlookup
    have hcell := Except.ok.inj (congrArg Prod.snd hlookup)
    rw [← hcell, if_neg (by simp [henabled]), hmatch, if_pos rfl, hpath]
    rfl
  · refine Or.inr ⟨hafter.trans hsame, ?_⟩
    rw [sourcePathLookupFragment] at hlookup
    split at hlookup
    · cases hlookup
    · cases hlookup
      rfl
    · rename_i response hrun
      have hcell := Except.ok.inj (congrArg Prod.snd hlookup)
      have hnone := hquiet response (congrArg Prod.snd hrun)
      rw [← hcell, hnone]
      by_cases hdisabled : hook.enabled = false
      · rw [if_pos hdisabled]
        rfl
      · rw [if_neg hdisabled]
        rfl

variable {albums : Bool} {row : SearchRow}

theorem key_lookupRequest (row : SearchRow) (albums : Bool) :
    (row.lookupRequest albums).key? = some (rowSubject albums, row.id) := by
  cases albums with
  | true => rfl
  | false => rfl

/-- The cell links where the row does. -/
theorem link_lookupTarget {entry : LibraryEntry}
    (hentry : later.get? (rowSubject albums, row.id) = some entry)
    (halbum : albums = false → entry.albumId = row.albumId)
    (path : List Char) :
    cleanSlateLink path (lookupTarget later (row.lookupRequest albums)).1
        (lookupTarget later (row.lookupRequest albums)).2 =
      rowLink albums row path := by
  cases albums with
  | true => rfl
  | false =>
      have htarget : lookupTarget later (row.lookupRequest false) =
          (row.albumId,
            if (givenId row.albumId).isSome then none else some row.id) := by
        rw [lookupTarget, key_lookupRequest, Option.bind_some, hentry,
          Option.bind_some, halbum rfl]
        rfl
      rw [htarget]
      rfl

/-- A path that changes only the row's own inference changes no other row. -/
theorem inferenceFor_of_paths {path : String}
    (hpaths : ∀ other, after.paths other =
      if (rowSubject albums, row.id) = other then some path
      else table.paths other) {other : SearchRow} (hid : other.id ≠ row.id) :
    inferenceFor after albums other = inferenceFor table albums other := by
  have hown : (rowSubject albums, row.id) ≠ (rowSubject albums, other.id) :=
    fun hsame => hid (congrArg Prod.snd hsame).symm
  rw [inferenceFor, inferenceFor, hpaths, if_neg hown]
  cases albums with
  | true => rfl
  | false =>
      have halbum : ∀ albumId, after.paths (.album, albumId) =
          table.paths (.album, albumId) := by
        intro albumId
        rw [hpaths]
        exact if_neg fun hsame => by cases congrArg Prod.fst hsame
      simp only [halbum]

/-- The button in a row without sources shows in its cell what the results
table shows there on the next load, down to the link, and no other row of the
page changes. -/
theorem lookup_cell_is_next_row_cell (hook : DownloaderHook)
    (library later : LibraryEntries) (answer : StrDict → DownloaderAnswer)
    (now : Int) (db : EventsDb) (table after : InferenceTable)
    (rows : List SearchRow) (albums : Bool) (row : SearchRow)
    (entry : LibraryEntry) (cell : LookupCell)
    (hids : (rows.map SearchRow.id).Nodup) (hrow : row ∈ rows)
    (hbutton : searchCell db table rows albums row = .notRecorded)
    (hentry : later.get? (rowSubject albums, row.id) = some entry)
    (halbum : albums = false → entry.albumId = row.albumId)
    (hlookup : sourcePathLookupFragment hook library later answer now
      (row.lookupRequest albums) table = (after, .ok cell)) :
    searchCell db after rows albums row = cell.onNextLoad ∧
      (∀ path link, cell = .inferred path link →
        link = rowLink albums row path.toList) ∧
      ∀ other ∈ rows, other ≠ row →
        searchCell db after rows albums other =
          searchCell db table rows albums other := by
  have hcell : ∀ (table : InferenceTable) (other : SearchRow), other ∈ rows →
      searchCell db table rows albums other =
        sourcePathCell (sourcePathsLookup db rows albums other)
          (inferenceFor table albums other) := by
    intro table other hother
    rw [searchCell, inferredSourcePathsForRows_eq table albums hids hother]
  rcases sourcePathLookupFragment_spec hlookup with
    ⟨key, path, hkey, rfl, hpaths⟩ | ⟨rfl, hshown⟩
  · rw [key_lookupRequest] at hkey
    obtain rfl := Option.some.inj hkey
    refine ⟨?_, ?_, ?_⟩
    · have hunrecorded := (sourcePathCell_eq_notRecorded_iff.mp hbutton).1
      rw [hcell after row hrow, hunrecorded, inferenceFor, hpaths, if_pos rfl]
      rfl
    · intro shown link hinferred
      obtain ⟨rfl, rfl⟩ := LookupCell.inferred.inj hinferred
      exact link_lookupTarget hentry halbum _
    · intro other hother hne
      have hid : other.id ≠ row.id := fun hsame =>
        hne (List.inj_on_of_nodup_map hids hother hrow hsame)
      rw [hcell after other hother, hcell table other hother,
        inferenceFor_of_paths hpaths hid]
  · refine ⟨hbutton.trans hshown.symm, ?_, fun _ _ _ => rfl⟩
    rintro path link rfl
    cases hshown

/-- Of two albums without sources the first one is looked up. -/
theorem lookup_cell_is_next_row_cell_two_albums :
    let rows : List SearchRow := [⟨1, none⟩, ⟨2, none⟩]
    ∃ after cell, sourcePathLookupFragment dataHook oneAlbum oneAlbum
        knowsGeogaddi 0 (SearchRow.lookupRequest ⟨1, none⟩ true)
        KeyedTable.empty = (after, .ok cell) ∧
      searchCell (ledgerOf []) after rows true ⟨1, none⟩ = cell.onNextLoad ∧
      (∀ path link, cell = .inferred path link →
        link = rowLink true ⟨1, none⟩ path.toList) ∧
      ∀ other ∈ rows, other ≠ ⟨1, none⟩ →
        searchCell (ledgerOf []) after rows true other =
          searchCell (ledgerOf []) KeyedTable.empty rows true other :=
  ⟨_, _, rfl, lookup_cell_is_next_row_cell dataHook oneAlbum oneAlbum
    knowsGeogaddi 0 (ledgerOf []) KeyedTable.empty _ _ true ⟨1, none⟩ _ _
    (by decide) (by decide) (by decide) rfl nofun rfl⟩

end Cell

end Beetkeeper
