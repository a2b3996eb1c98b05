/-
From a source folder on the search page to the clean slate of its entry: the
link below the path, the import page it leads to, the form the page is
prefilled with, and the request that arrives when the form is sent.
-/
import Beetkeeper.SearchPages
import Beetkeeper.SearchRows
import Beetkeeper.ImportSubmission

namespace Beetkeeper

open FormUrl PyText

/-- `str` of an id. -/
def idText : Int → List Char
  | .ofNat n => decimal n
  | .negSucc n => '-' :: decimal (n + 1)

/-- An id that is there and is not zero. -/
def givenId (id : Option Nat) : Option Nat := id.filter fun n => decide (n ≠ 0)

/-- The pairs of `clean_slate_link`, the path quoted by itself. -/
def cleanSlateLinkPairs (path : List Char) (albumId itemId : Option Nat) :
    Pairs :=
  match givenId albumId, givenId itemId with
  | some album, _ => [("clean_slate_album_id".toList, decimal album),
      ("clean_slate_source".toList, quote path)]
  | none, some item => [("clean_slate_item_id".toList, decimal item),
      ("clean_slate_source".toList, quote path)]
  | none, none => [("path".toList, quote path)]

/-- `clean_slate_link`, from the query of its URL on. -/
def cleanSlateLink (path : List Char) (albumId itemId : Option Nat) :
    List Char :=
  ['&'].intercalate ((cleanSlateLinkPairs path albumId itemId).map fun pair =>
      pair.1 ++ '=' :: pair.2) ++
    if (givenId albumId).isSome ∨ (givenId itemId).isSome then
      "#clean-slate".toList
    else []

/-- The link in a row of the results: a track in an album leads to its
album. -/
def rowLink (albums : Bool) (row : SearchRow) (path : List Char) :
    List Char :=
  if albums then cleanSlateLink path (some row.id) none
  else cleanSlateLink path row.albumId
    (if row.album?.isSome then none else some row.id)

/-- What a browser sends of a link. -/
def sentQuery (link : List Char) : List Char := link.takeWhile (· ≠ '#')

/-- The query parameters of `import_page`. -/
structure ImportPageParams where
  path : List Char
  cleanSlateAlbumId : Option Int
  cleanSlateItemId : Option Int
  cleanSlateSource : List Char

/-- An optional id; `none` when there is one that is no number. -/
def readId (scalars : QueryScalars) (pairs : Pairs) (name : String) :
    Option (Option Int) :=
  (field? name pairs).elim (some none) fun text =>
    (scalars.readInt text).map some

def ImportPageParams.read (scalars : QueryScalars) (pairs : Pairs) :
    Option ImportPageParams := do
  let albumId ← readId scalars pairs "clean_slate_album_id"
  let itemId ← readId scalars pairs "clean_slate_item_id"
  some
    { path := (field? "path" pairs).getD []
      cleanSlateAlbumId := albumId
      cleanSlateItemId := itemId
      cleanSlateSource := (field? "clean_slate_source" pairs).getD [] }

/-- The names the library has for an entry: of an album its artist and title,
of a track the same. -/
structure EntryNames where
  album : Int → Option (String × String)
  track : Int → Option (String × String)

def nameLabel (missing : String) : Option (String × String) → String
  | some (artist, title) =>
      (if artist = "" then "?" else artist) ++ " - " ++
        (if title = "" then "?" else title)
  | none => missing

structure CleanSlatePrefill where
  subject : CleanSlateSubject
  beetsId : Int
  label : String
  source : List Char

/-- `_clean_slate_prefill`. -/
def cleanSlatePrefill (names : EntryNames) (params : ImportPageParams) :
    Option CleanSlatePrefill :=
  match params.cleanSlateAlbumId, params.cleanSlateItemId with
  | some albumId, _ => some
      { subject := .album
        beetsId := albumId
        label := nameLabel "(album not found)" (names.album albumId)
        source := params.cleanSlateSource }
  | none, some itemId => some
      { subject := .track
        beetsId := itemId
        label := nameLabel "(track not found)" (names.track itemId)
        source := params.cleanSlateSource }
  | none, none => none

/-- The text of an input of one line. -/
def oneLineText (text : List Char) : List Char :=
  text.filter fun c => decide (c ≠ '\n' ∧ c ≠ '\r')

/-- The pairs the page's form is sent with, if only the box that allows fewer
files may have been ticked. -/
def formPairs (defaults : ImportDefaults) (prefill : CleanSlatePrefill)
    (allowFewerFiles : Bool) : Pairs :=
  [((if prefill.subject = .album then "beets_album_id".toList
      else "beets_item_id".toList), idText prefill.beetsId),
    ("source_path".toList, oneLineText prefill.source)] ++
  (if allowFewerFiles then [("allow_fewer_files".toList, "on".toList)]
    else []) ++
  (if defaults.untouched.quiet then [("quiet".toList, "on".toList)] else []) ++
  [("logpath".toList, oneLineText defaults.untouched.logpath.toList),
    ("set_fields".toList, defaults.untouched.setFields)]

/-- The form fields of `import_clean_slate_submit`. -/
structure CleanSlateForm where
  sourcePath : List Char
  beetsAlbumId : Option Int
  beetsItemId : Option Int
  allowFewerFiles : Bool
  quiet : Bool
  logpath : List Char
  setFields : List Char

/-- The value of a form field; an empty one is as good as none. -/
def formValue? (pairs : Pairs) (name : String) : Option (List Char) :=
  (field? name pairs).filter fun text => !text.isEmpty

def formId (scalars : QueryScalars) (pairs : Pairs) (name : String) :
    Option (Option Int) :=
  (formValue? pairs name).elim (some none) fun text =>
    (scalars.readInt text).map some

def formFlag (scalars : QueryScalars) (pairs : Pairs) (name : String) :
    Option Bool :=
  (formValue? pairs name).elim (some false) scalars.readBool

/-- The form as it arrives; `none` is a refusal with status 422. -/
def CleanSlateForm.read (scalars : QueryScalars) (pairs : Pairs) :
    Option CleanSlateForm := do
  let sourcePath ← formValue? pairs "source_path"
  let albumId ← formId scalars pairs "beets_album_id"
  let itemId ← formId scalars pairs "beets_item_id"
  let allowFewerFiles ← formFlag scalars pairs "allow_fewer_files"
  let quiet ← formFlag scalars pairs "quiet"
  some
    { sourcePath := sourcePath
      beetsAlbumId := albumId
      beetsItemId := itemId
      allowFewerFiles := allowFewerFiles
      quiet := quiet
      logpath := (formValue? pairs "logpath").getD []
      setFields := (formValue? pairs "set_fields").getD [] }

/-- `CleanSlatePreviewRequest`. -/
structure CleanSlatePreviewRequest where
  beetsAlbumId : Option Int
  beetsItemId : Option Int
  sourcePath : List Char
  allowFewerFiles : Bool
deriving Repr, DecidableEq

/-- Why the model refuses its fields, with status 422. -/
inductive RequestRefusal where
  | emptySourcePath
  | noId
  | bothIds
deriving Repr, DecidableEq

/-- `_clean_slate_request`: the fields are checked before the model. -/
def cleanSlateRequest (beetsAlbumId beetsItemId : Option Int)
    (sourcePath : List Char) (allowFewerFiles : Bool) :
    Except RequestRefusal CleanSlatePreviewRequest :=
  if strip sourcePath = [] then .error .emptySourcePath
  else if beetsAlbumId = none ∧ beetsItemId = none then .error .noId
  else if beetsAlbumId ≠ none ∧ beetsItemId ≠ none then .error .bothIds
  else .ok ⟨beetsAlbumId, beetsItemId, strip sourcePath, allowFewerFiles⟩

/-- Follow a link to the import page and send its form; `none` where there is
no page, no form or no request. -/
def followCleanSlateLink (scalars : QueryScalars) (names : EntryNames)
    (defaults : ImportDefaults) (allowFewerFiles : Bool) (link : List Char) :
    Option (Except RequestRefusal CleanSlatePreviewRequest) := do
  let params ← ImportPageParams.read scalars (parseQsl (sentQuery link))
  let prefill ← cleanSlatePrefill names params
  -- the page has the form only for a source that is known
  if prefill.source = [] then none
  else
    let pairs := formPairs defaults prefill allowFewerFiles
    let form ← CleanSlateForm.read scalars (parseQsl (urlencode pairs))
    some (cleanSlateRequest form.beetsAlbumId form.beetsItemId form.sourcePath
    form.allowFewerFiles)

section Following

variable {scalars : QueryScalars} {names : EntryNames}
  {defaults : ImportDefaults} {allowFewerFiles : Bool}

/-- The link of an entry is read as it was written. -/
theorem parseQsl_sentQuery {name : List Char}
    (hsafe : name.all isSafe = true) (n : Nat) (path : List Char) :
    parseQsl (sentQuery (['&'].intercalate
        ([(name, decimal n), ("clean_slate_source".toList, quote path)].map
          fun pair => pair.1 ++ '=' :: pair.2) ++ "#clean-slate".toList)) =
      [(name, decimal n), ("clean_slate_source".toList, path)] := by
  have hname := List.all_eq_true.mp hsafe
  have hsource : ∀ c ∈ "clean_slate_source".toList, isSafe c = true :=
    List.all_eq_true.mp rfl
  have hfree : ∀ delimiter, isSafe delimiter = false → delimiter ≠ '+' →
      delimiter ≠ '%' → delimiter ≠ '/' →
      ∀ pair ∈ [(name, decimal n), ("clean_slate_source".toList, quote path)],
        delimiter ∉ pair.1 ∧ delimiter ∉ pair.2 := by
    intro delimiter hdelimiter hplus hescape hslash pair hpair
    simp only [List.mem_cons, List.not_mem_nil, or_false] at hpair
    rcases hpair with rfl | rfl
    · exact ⟨fun hmem => isSafe_ne (hname _ hmem) hdelimiter rfl,
        fun hmem => isSafe_ne (isSafe_of_mem_decimal hmem) hdelimiter rfl⟩
    · exact ⟨fun hmem => isSafe_ne (hsource _ hmem) hdelimiter rfl,
        not_mem_quote hdelimiter hplus hescape hslash path⟩
  have hquery : sentQuery (['&'].intercalate
      ([(name, decimal n), ("clean_slate_source".toList, quote path)].map
        fun pair => pair.1 ++ '=' :: pair.2) ++ "#clean-slate".toList) =
      ['&'].intercalate
        ([(name, decimal n), ("clean_slate_source".toList, quote path)].map
          fun pair => pair.1 ++ '=' :: pair.2) := by
    rw [sentQuery, List.takeWhile_append_of_pos]
    · exact List.append_nil _
    · have hhash := hfree '#' (by decide) (by decide) (by decide) (by decide)
      intro c hc
      rw [decide_eq_true_eq]
      rintro rfl
      simp only [List.map_cons, List.map_nil, List.intercalate_cons_cons,
        List.intercalate_singleton, List.mem_append, List.mem_cons,
        List.not_mem_nil, or_false] at hc
      have hfirst := hhash _ List.mem_cons_self
      have hsecond := hhash _ (List.mem_cons_of_mem _ List.mem_cons_self)
      rcases hc with ((hc | hc | hc) | hc) | hc | hc | hc
      · exact hfirst.1 hc
      · exact absurd hc (by decide)
      · exact hfirst.2 hc
      · exact absurd hc (by decide)
      · exact hsecond.1 hc
      · exact absurd hc (by decide)
      · exact hsecond.2 hc
  rw [hquery, parseQsl_intercalate]
  · simp only [List.map_cons, List.map_nil, unquotePlus_of_safe hname,
      unquotePlus_of_safe hsource, unquotePlus_quote,
      unquotePlus_of_safe fun c (hc : c ∈ decimal n) =>
        isSafe_of_mem_decimal hc]
  · intro pair hpair
    have hand := hfree '&' (by decide) (by decide) (by decide) (by decide)
      pair hpair
    have hequals := hfree '=' (by decide) (by decide) (by decide) (by decide)
      pair hpair
    exact ⟨hand.1, hequals.1, hand.2⟩

/-- The fields of the form, by their names. -/
theorem field?_formPairs (defaults : ImportDefaults)
    (prefill : CleanSlatePrefill) (allowFewerFiles : Bool) :
    field? "source_path" (formPairs defaults prefill allowFewerFiles) =
        some (oneLineText prefill.source) ∧
      field? "beets_album_id" (formPairs defaults prefill allowFewerFiles) =
        (if prefill.subject = .album then some (idText prefill.beetsId)
          else none) ∧
      field? "beets_item_id" (formPairs defaults prefill allowFewerFiles) =
        (if prefill.subject = .album then none
          else some (idText prefill.beetsId)) ∧
      field? "allow_fewer_files"
          (formPairs defaults prefill allowFewerFiles) =
        (if allowFewerFiles then some "on".toList else none) ∧
      field? "quiet" (formPairs defaults prefill allowFewerFiles) =
        (if defaults.untouched.quiet then some "on".toList else none) := by
  obtain ⟨subject, beetsId, label, source⟩ := prefill
  unfold formPairs
  generalize defaults.untouched.quiet = quiet
  cases subject <;> cases allowFewerFiles <;> cases quiet
  all_goals exact ⟨rfl, rfl, rfl, rfl, rfl⟩

theorem formFlag_on {pairs : Pairs} {name : String} {ticked : Bool}
    (hfield : field? name pairs =
      if ticked then some "on".toList else none) :
    formFlag scalars pairs name = some ticked := by
  rw [formFlag, formValue?, hfield]
  cases ticked with
  | true => exact scalars.readBool_on
  | false => rfl

theorem formId_decimal {pairs : Pairs} {name : String} {n : Nat}
    (hfield : field? name pairs = some (decimal n)) :
    formId scalars pairs name = some (some (n : Int)) := by
  have hsome : (decimal n).isEmpty = false := by
    simp [decimal, Nat.toDigits_ne_nil]
  rw [formId, formValue?, hfield, Option.filter_some, hsome]
  simp [scalars.readInt_decimal]

theorem formId_none {pairs : Pairs} {name : String}
    (hfield : field? name pairs = none) :
    formId scalars pairs name = some none := by
  rw [formId, formValue?, hfield]
  rfl

/-- What arrives of the form: the id of its subject, and the source on one
line. -/
theorem read_formPairs (scalars : QueryScalars) (defaults : ImportDefaults)
    (prefill : CleanSlatePrefill) (allowFewerFiles : Bool) {n : Nat}
    (hid : prefill.beetsId = n) (hsource : oneLineText prefill.source ≠ []) :
    CleanSlateForm.read scalars
        (formPairs defaults prefill allowFewerFiles) =
      some
        { sourcePath := oneLineText prefill.source
          beetsAlbumId :=
            if prefill.subject = .album then some (n : Int) else none
          beetsItemId :=
            if prefill.subject = .album then none else some (n : Int)
          allowFewerFiles := allowFewerFiles
          quiet := defaults.untouched.quiet
          logpath := (formValue? (formPairs defaults prefill allowFewerFiles)
            "logpath").getD []
          setFields := (formValue?
            (formPairs defaults prefill allowFewerFiles)
            "set_fields").getD [] } := by
  obtain ⟨hpath, halbum, hitem, hallow, hquiet⟩ :=
    field?_formPairs defaults prefill allowFewerFiles
  have hpathValue : formValue? (formPairs defaults prefill allowFewerFiles)
      "source_path" = some (oneLineText prefill.source) := by
    rw [formValue?, hpath, Option.filter_some]
    simp [hsource]
  have htext : idText prefill.beetsId = decimal n := by
    rw [hid]
    rfl
  rw [htext] at halbum hitem
  cases hsubject : prefill.subject with
  | album =>
      rw [hsubject] at halbum hitem
      rw [CleanSlateForm.read, hpathValue, formId_decimal halbum,
        formId_none hitem, formFlag_on hallow, formFlag_on hquiet]
      rfl
  | track =>
      rw [hsubject] at halbum hitem
      rw [CleanSlateForm.read, hpathValue, formId_none halbum,
        formId_decimal hitem, formFlag_on hallow, formFlag_on hquiet]
      rfl

/-- The page an entry's link leads to is prefilled with that entry. -/
theorem exists_prefill (scalars : QueryScalars) (names : EntryNames)
    (path : List Char) {albumId itemId : Option Nat}
    {subject : CleanSlateSubject} {n : Nat}
    (hentry : (subject = .album ∧ givenId albumId = some n) ∨
      (subject = .track ∧ givenId albumId = none ∧
        givenId itemId = some n)) :
    ∃ params prefill,
      ImportPageParams.read scalars
          (parseQsl (sentQuery (cleanSlateLink path albumId itemId))) =
        some params ∧
      cleanSlatePrefill names params = some prefill ∧
      prefill.subject = subject ∧ prefill.beetsId = n ∧
      prefill.source = path := by
  rcases hentry with ⟨rfl, halbum⟩ | ⟨rfl, halbum, hitem⟩
  · have hquery : parseQsl (sentQuery (cleanSlateLink path albumId itemId)) =
        [("clean_slate_album_id".toList, decimal n),
          ("clean_slate_source".toList, path)] := by
      rw [cleanSlateLink, cleanSlateLinkPairs, halbum, if_pos (.inl rfl)]
      exact parseQsl_sentQuery rfl n path
    have hid : readId scalars [("clean_slate_album_id".toList, decimal n),
        ("clean_slate_source".toList, path)] "clean_slate_album_id" =
          some (some (n : Int)) := by
      show (scalars.readInt (decimal n)).map some = _
      rw [scalars.readInt_decimal, Option.map_some]
    refine ⟨⟨[], some n, none, path⟩, _, ?_, rfl, rfl, rfl, rfl⟩
    rw [hquery, ImportPageParams.read, hid]
    rfl
  · have hquery : parseQsl (sentQuery (cleanSlateLink path albumId itemId)) =
        [("clean_slate_item_id".toList, decimal n),
          ("clean_slate_source".toList, path)] := by
      rw [cleanSlateLink, cleanSlateLinkPairs, halbum, hitem,
        if_pos (.inr rfl)]
      exact parseQsl_sentQuery rfl n path
    have hid : readId scalars [("clean_slate_item_id".toList, decimal n),
        ("clean_slate_source".toList, path)] "clean_slate_item_id" =
          some (some (n : Int)) := by
      show (scalars.readInt (decimal n)).map some = _
      rw [scalars.readInt_decimal, Option.map_some]
    refine ⟨⟨[], none, some n, path⟩, _, ?_, rfl, rfl, rfl, rfl⟩
    rw [hquery, ImportPageParams.read, hid]
    rfl

/-- The link of an entry leads to a request for that entry, from the path as
far as the form carries it. -/
theorem followCleanSlateLink_of_entry {albumId itemId : Option Nat}
    {subject : CleanSlateSubject} {n : Nat} {path : List Char}
    (hentry : (subject = .album ∧ givenId albumId = some n) ∨
      (subject = .track ∧ givenId albumId = none ∧ givenId itemId = some n))
    (hpath : strip (oneLineText path) ≠ []) :
    followCleanSlateLink scalars names defaults allowFewerFiles
        (cleanSlateLink path albumId itemId) =
      some (.ok ⟨if subject = .album then some (n : Int) else none,
        if subject = .album then none else some (n : Int),
        strip (oneLineText path), allowFewerFiles⟩) := by
  have hline : oneLineText path ≠ [] := by
    intro hnone
    rw [hnone] at hpath
    exact hpath rfl
  have hsource : path ≠ [] := by
    rintro rfl
    exact hline rfl
  obtain ⟨params, prefill, hparams, hfilled, rfl, hid, rfl⟩ :=
    exists_prefill scalars names path hentry
  have hform := read_formPairs scalars defaults prefill allowFewerFiles hid
    hline
  have hids : prefill.subject = .album ∨ prefill.subject ≠ .album :=
    Decidable.em _
  rw [followCleanSlateLink, hparams]
  simp only [Option.bind_eq_bind, Option.bind_some, hfilled, if_neg hsource,
    parseQsl_urlencode, hform, cleanSlateRequest, if_neg hpath]
  rcases hids with halbum | htrack
  · simp [halbum]
  · simp [htrack]

/-- The entry a row is about: a track in an album stands for its album. -/
def SearchRow.entry (albums : Bool) (row : SearchRow) : CleanSlateTarget :=
  if albums then ⟨.album, row.id⟩
  else
    match row.album? with
    | some albumId => ⟨.album, albumId⟩
    | none => ⟨.track, row.id⟩

/-- The request that names an entry by the one id it has. -/
def CleanSlateTarget.request (target : CleanSlateTarget)
    (sourcePath : List Char) (allowFewerFiles : Bool) :
    CleanSlatePreviewRequest where
  beetsAlbumId := if target.subject = .album then some target.beetsId else none
  beetsItemId := if target.subject = .album then none else some target.beetsId
  sourcePath := sourcePath
  allowFewerFiles := allowFewerFiles

/-- Whatever the folder is called, the link below it in a row leads to a clean
slate of that row's entry from that folder, as far as a text on one line
without blanks around it can name it. -/
theorem row_link_reaches_entry (scalars : QueryScalars) (names : EntryNames)
    (defaults : ImportDefaults) (allowFewerFiles albums : Bool)
    (row : SearchRow) (path : List Char) (hid : row.id ≠ 0)
    (hpath : strip (oneLineText path) ≠ []) :
    followCleanSlateLink scalars names defaults allowFewerFiles
        (rowLink albums row path) =
      some (.ok ((row.entry albums).request (strip (oneLineText path))
        allowFewerFiles)) := by
  have hown : givenId (some row.id) = some row.id := by simp [givenId, hid]
  cases albums with
  | true => exact followCleanSlateLink_of_entry (.inl ⟨rfl, hown⟩) hpath
  | false =>
      rw [rowLink, if_neg Bool.false_ne_true, SearchRow.entry,
        if_neg Bool.false_ne_true]
      cases halbum : row.album? with
      | some albumId =>
          exact followCleanSlateLink_of_entry (.inl ⟨rfl, halbum⟩) hpath
      | none =>
          exact followCleanSlateLink_of_entry (.inr ⟨rfl, halbum, hown⟩) hpath

/-- A folder whose name holds what ends a value, a query and an escape. -/
def oddFolder : List Char := "/downloads/A&B #1 100%".toList

/-- The row of track 7 leads to its album. -/
theorem row_link_reaches_album :
    followCleanSlateLink plainScalars ⟨fun _ => none, fun _ => none⟩
        ⟨true, false, false, "", []⟩ true
        (rowLink false ⟨7, some 3⟩ oddFolder) =
      some (.ok ⟨some 3, none, oddFolder, true⟩) :=
  row_link_reaches_entry plainScalars _ _ true false ⟨7, some 3⟩ oddFolder
    (by decide) (by decide)

end Following

end Beetkeeper
