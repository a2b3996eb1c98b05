/-
The search page: the text that is typed becomes the parts of a beets query,
the matches are shown page by page, and the buttons below a page carry the
search in their URL.
-/
import Beetkeeper.FormUrl
import Beetkeeper.JobListing
import Beetkeeper.ShellWords

namespace Beetkeeper

open FormUrl

/-- `str` of a number. -/
def decimal (n : Nat) : List Char := Nat.toDigits 10 n

/-- A text that is there and is not empty. -/
def given : Option (List Char) → List (List Char)
  | some text => if text.isEmpty then [] else [text]
  | none => []

/-- `SearchResultsQueryParamsModel`. -/
structure SearchResultsQueryParams extends PageQueryParams where
  query : List Char
  albums : Bool
  filepath : Option (List Char)
  sortBy : Option (List Char)

/-- `_build_query_parts`. -/
def buildQueryParts (query : List Char) (filepath sortBy : Option (List Char)) :
    List (List Char) :=
  let parts :=
    match ShellWords.split query with
    | .ok parts => parts
    | .error _ => PyText.splitBlanks query
  parts ++ given filepath ++ given sortBy

example : buildQueryParts "it's here".toList none (some "year+".toList) =
    ["it's".toList, "here".toList, "year+".toList] := by decide

/-- What beets finds among its albums or among its items; no parts at all find
everything. -/
structure SearchLibrary (Row : Type) where
  find : Bool → Option (List (List Char)) → Except String (List Row)

section

variable {Row : Type}

/-- `_paged_jsonify`. -/
def pagedJsonify (results : List Row) (offset : Nat) (limit : Option Nat) :
    List Row × Nat :=
  let rest := results.drop offset
  (limit.elim rest rest.take, results.length)

/-- `query_albums` or `query_items`. -/
def SearchLibrary.queryMethod (library : SearchLibrary Row) (albums : Bool)
    (query : List (List Char)) (offset : Nat) (limit : Option Nat) :
    Except String (List Row × Nat) :=
  let parts := if query.isEmpty then none else some query
  (library.find albums parts).map fun results =>
    pagedJsonify results offset limit

/-- What `search_results.html` is rendered with. -/
structure SearchResultsPage (Row : Type) where
  results : List Row
  albums : Bool
  error : Option String
  total : Nat
  page : Nat
  startIndex : Nat
  endIndex : Nat
  baseParams : List Char

def SearchResultsQueryParams.offset (params : SearchResultsQueryParams) : Nat :=
  Paging.offset params.pageSize params.page

def SearchResultsQueryParams.parts (params : SearchResultsQueryParams) :
    List (List Char) :=
  buildQueryParts params.query params.filepath params.sortBy

/-- The query beets is asked: no parts at all ask for everything. -/
def SearchResultsQueryParams.wanted (params : SearchResultsQueryParams) :
    Option (List (List Char)) :=
  if params.parts.isEmpty then none else some params.parts

/-- What all links of a search have in common. -/
def SearchResultsQueryParams.basePairs (params : SearchResultsQueryParams) :
    Pairs :=
  [("query".toList, params.query),
    ("albums".toList, if params.albums then "true".toList else "false".toList),
    ("filepath".toList, params.filepath.getD []),
    ("sort_by".toList, params.sortBy.getD []),
    ("page_size".toList, decimal params.pageSize)]

/-- `search_results_fragment`. -/
def searchResultsFragment (library : SearchLibrary Row)
    (params : SearchResultsQueryParams) : SearchResultsPage Row :=
  let answer := library.queryMethod params.albums params.parts params.offset
    (some params.pageSize)
  let found := match answer with
    | .ok found => found
    | .error _ => ([], 0)
  { results := found.1
    albums := params.albums
    error := match answer with
      | .ok _ => none
      | .error text => some text
    total := found.2
    page := params.page
    startIndex := params.offset + 1
    endIndex := params.offset + found.1.length
    baseParams := urlencode params.basePairs }

/-- The buttons `search_results.html` may show. -/
inductive PageButton where
  | previous
  | next
  | backToFirst
  deriving DecidableEq

namespace SearchResultsPage

def link (page : SearchResultsPage Row) (number : Nat) : List Char :=
  page.baseParams ++ "&page=".toList ++ decimal number

/-- `search_results.html`: the buttons and the query of their URL. -/
def button? (page : SearchResultsPage Row) (button : PageButton) :
    Option (List Char) :=
  if page.error.any (· ≠ "") then none
  else
    match button with
    | .previous =>
        if page.results ≠ [] ∧ 1 < page.page then
          some (page.link (page.page - 1))
        else none
    | .next =>
        if page.results ≠ [] ∧ page.endIndex < page.total then
          some (page.link (page.page + 1))
        else none
    | .backToFirst =>
        if page.results = [] ∧ page.total ≠ 0 then some (page.link 1)
        else none

end SearchResultsPage

/-- Pydantic's reading of a whole number and of a truth value. -/
structure QueryScalars where
  readInt : List Char → Option Int
  readBool : List Char → Option Bool
  readInt_decimal : ∀ n : Nat, readInt (decimal n) = some (n : Int)
  readBool_true : readBool "true".toList = some true
  readBool_false : readBool "false".toList = some false
  readBool_on : readBool "on".toList = some true

/-- The validation of `SearchResultsQueryParamsModel`. -/
def SearchResultsQueryParams.read (scalars : QueryScalars) (pairs : Pairs) :
    Option SearchResultsQueryParams := do
  let page ← (field? "page" pairs).elim (some 1) scalars.readInt
  let pageSize ← (field? "page_size" pairs).elim (some 25) scalars.readInt
  let albums ← (field? "albums" pairs).elim (some false) scalars.readBool
  if h : 1 ≤ page ∧ 1 ≤ pageSize ∧ pageSize ≤ 100 then
    some
      { page := page.toNat
        pageSize := pageSize.toNat
        page_pos := by omega
        pageSize_pos := by omega
        pageSize_le := by omega
        query := (field? "query" pairs).getD []
        albums := albums
        filepath := field? "filepath" pairs
        sortBy := field? "sort_by" pairs }
  else none

variable (scalars : QueryScalars) (library : SearchLibrary Row)

/-- A request for the fragment, by the query of its URL; `none` is a refusal
with status 422. -/
def visitSearch (text : List Char) : Option (SearchResultsPage Row) :=
  (SearchResultsQueryParams.read scalars (parseQsl text)).map
    (searchResultsFragment library)

/-- The pages that are shown by following the next button. -/
def readOn : Nat → List Char → List (SearchResultsPage Row)
  | 0, _ => []
  | fuel + 1, text =>
      match visitSearch scalars library text with
      | none => []
      | some page => page :: (page.button? .next).elim [] (readOn fuel)

end

section Links

variable {Row : Type} {scalars : QueryScalars} {library : SearchLibrary Row}
  {params : SearchResultsQueryParams}

theorem isSafe_of_mem_decimal {n : Nat} {c : Char} (hc : c ∈ decimal n) :
    isSafe c = true := by
  have hdigit : c.isDigit = true :=
    Nat.isDigit_of_mem_toDigits (by decide) (by decide) hc
  simp [isSafe, Char.isAlphanum, hdigit]

/-- The pairs a link is made of. -/
def SearchResultsQueryParams.linkPairs (params : SearchResultsQueryParams)
    (number : Nat) : Pairs :=
  params.basePairs ++ [("page".toList, decimal number)]

theorem link_eq (number : Nat) :
    (searchResultsFragment library params).link number =
      urlencode (params.linkPairs number) := by
  have hname : quotePlus "page".toList = "page".toList := by decide
  have hnumber : quotePlus (decimal number) = decimal number :=
    quotePlus_of_safe fun _ => isSafe_of_mem_decimal
  have hpairs : params.basePairs ≠ [] := List.cons_ne_nil _ _
  rw [SearchResultsQueryParams.linkPairs, urlencode_concat hpairs, quotePair,
    hname, hnumber]
  exact List.append_assoc _ _ _

/-- The same search, turned to another page. -/
def SearchResultsQueryParams.turnTo (params : SearchResultsQueryParams)
    (number : Nat) (hnumber : 1 ≤ number) : SearchResultsQueryParams :=
  { params with
    page := number
    page_pos := hnumber
    filepath := some (params.filepath.getD [])
    sortBy := some (params.sortBy.getD []) }

theorem read_linkPairs {number : Nat} (hnumber : 1 ≤ number) :
    SearchResultsQueryParams.read scalars (params.linkPairs number) =
      some (params.turnTo number hnumber) := by
  have hpage : field? "page" (params.linkPairs number) =
      some (decimal number) := rfl
  have hsize : field? "page_size" (params.linkPairs number) =
      some (decimal params.pageSize) := rfl
  have hkind : field? "albums" (params.linkPairs number) =
      some (if params.albums then "true".toList else "false".toList) := rfl
  have halbums : scalars.readBool
      (if params.albums then "true".toList else "false".toList) =
      some params.albums := by
    cases params.albums with
    | true => exact scalars.readBool_true
    | false => exact scalars.readBool_false
  have hbounds : 1 ≤ (number : Int) ∧ 1 ≤ (params.pageSize : Int) ∧
      (params.pageSize : Int) ≤ 100 := by
    have hpos := params.pageSize_pos
    have hle := params.pageSize_le
    omega
  rw [SearchResultsQueryParams.read, hpage, hsize, hkind]
  simp only [Option.elim_some, scalars.readInt_decimal, halbums,
    Option.bind_eq_bind, Option.bind_some, dif_pos hbounds, Int.toNat_natCast]
  rfl

/-- A link leads to its page of the search it stands below. -/
theorem visitSearch_link (params : SearchResultsQueryParams) {number : Nat}
    (hnumber : 1 ≤ number) :
    visitSearch scalars library
        ((searchResultsFragment library params).link number) =
      some (searchResultsFragment library
        (params.turnTo number hnumber)) := by
  rw [visitSearch, link_eq, parseQsl_urlencode, read_linkPairs hnumber]
  rfl

theorem given_getD (text : Option (List Char)) :
    given (some (text.getD [])) = given text := by
  cases text with
  | none => rfl
  | some text => rfl

theorem parts_turnTo {number : Nat} (hnumber : 1 ≤ number) :
    (params.turnTo number hnumber).parts = params.parts := by
  simp only [SearchResultsQueryParams.parts, buildQueryParts,
    SearchResultsQueryParams.turnTo, given_getD]

theorem turnTo_turnTo {number other : Nat} (hnumber : 1 ≤ number)
    (hother : 1 ≤ other) :
    (params.turnTo number hnumber).turnTo other hother =
      params.turnTo other hother := rfl

end Links

section Walk

variable {Row : Type} {scalars : QueryScalars} {library : SearchLibrary Row}
  {params : SearchResultsQueryParams} {found : List Row}

theorem fragment_of_find (hfind : library.find params.albums params.wanted =
      .ok found) :
    (searchResultsFragment library params).results =
        Paging.page params.pageSize params.page found ∧
      (searchResultsFragment library params).total = found.length ∧
      (searchResultsFragment library params).error = none := by
  have hanswer : library.queryMethod params.albums params.parts params.offset
      (some params.pageSize) =
        .ok (Paging.page params.pageSize params.page found, found.length) := by
    rw [SearchResultsQueryParams.wanted] at hfind
    rw [SearchLibrary.queryMethod, hfind]
    rfl
  simp only [searchResultsFragment, hanswer, and_self]

/-- The matches do not depend on the page that is asked for. -/
theorem find_turnTo {number : Nat} (hnumber : 1 ≤ number) :
    library.find (params.turnTo number hnumber).albums
        (params.turnTo number hnumber).wanted =
      library.find params.albums params.wanted := by
  rw [SearchResultsQueryParams.wanted, SearchResultsQueryParams.wanted,
    parts_turnTo]
  rfl

/-- A page that begins before the end shows something. -/
theorem results_ne_nil {k : Nat} (hpage : params.page = k + 1)
    (hfind : library.find params.albums params.wanted = .ok found)
    (hbegin : k * params.pageSize < found.length) :
    (searchResultsFragment library params).results ≠ [] := by
  have hpos := params.pageSize_pos
  rw [(fragment_of_find hfind).1, hpage, Paging.page, Paging.offset_succ]
  simp only [ne_eq, List.take_eq_nil_iff, List.drop_eq_nil_iff]
  omega

/-- There is a next page as long as there is something to show on it. -/
theorem button?_next {k : Nat} (hpage : params.page = k + 1)
    (hfind : library.find params.albums params.wanted = .ok found) :
    (searchResultsFragment library params).button? .next =
      if (k + 1) * params.pageSize < found.length then
        some ((searchResultsFragment library params).link (k + 2))
      else none := by
  obtain ⟨hresults, htotal, herror⟩ := fragment_of_find hfind
  have hend : (searchResultsFragment library params).endIndex <
      (searchResultsFragment library params).total ↔
        (k + 1) * params.pageSize < found.length := by
    rw [htotal, ← Paging.length_page_lt_iff, ← hpage, ← hresults]
    rfl
  have hnumber : (searchResultsFragment library params).page = k + 1 := hpage
  rw [SearchResultsPage.button?, herror, if_neg (by simp)]
  simp only [hend, hnumber]
  by_cases hmore : (k + 1) * params.pageSize < found.length
  · have hsome : (searchResultsFragment library params).results ≠ [] := by
      rw [Nat.succ_mul] at hmore
      exact results_ne_nil hpage hfind (by omega)
    rw [if_pos ⟨hsome, hmore⟩, if_pos hmore]
  · rw [if_neg fun h => hmore h.2, if_neg hmore]

theorem readOn_succ {text : List Char} {page : SearchResultsPage Row}
    (hvisit : visitSearch scalars library text = some page) (fuel : Nat) :
    readOn scalars library (fuel + 1) text =
      page :: (page.button? .next).elim [] (readOn scalars library fuel) := by
  rw [readOn, hvisit]

/-- The induction is on the pages that may still follow: what they show is
what the pages before them did not. -/
theorem readOn_spec (fuel : Nat) {k : Nat} {text : List Char}
    (hvisit : visitSearch scalars library text =
      some (searchResultsFragment library params))
    (hpage : params.page = k + 1)
    (hfind : library.find params.albums params.wanted = .ok found)
    (hfuel : found.length ≤ (k + 1 + fuel) * params.pageSize) :
    (readOn scalars library (fuel + 1) text).flatMap
          SearchResultsPage.results =
        found.drop (k * params.pageSize) ∧
      ∀ last ∈ (readOn scalars library (fuel + 1) text).getLast?,
        last.button? .next = none := by
  induction fuel generalizing k text params with
  | zero =>
      have hresults := (fragment_of_find hfind).1
      have hnext := button?_next hpage hfind
      have hend : ¬(k + 1) * params.pageSize < found.length :=
        Nat.not_lt.mpr hfuel
      rw [if_neg hend] at hnext
      rw [readOn_succ hvisit, hnext, Option.elim_none]
      refine ⟨?_, ?_⟩
      · rw [List.flatMap_singleton, hresults, hpage]
        exact Paging.page_of_last (Nat.le_of_not_lt hend)
      · intro last hlast
        obtain rfl := Option.some.inj hlast
        exact hnext
  | succ fuel ih =>
      have hresults := (fragment_of_find hfind).1
      have hnext := button?_next hpage hfind
      rw [readOn_succ hvisit, hnext]
      by_cases hmore : (k + 1) * params.pageSize < found.length
      · have hnumber : 1 ≤ k + 2 := by omega
        have hfuel' : found.length ≤ (k + 1 + 1 + fuel) * params.pageSize := by
          rwa [Nat.add_assoc (k + 1), Nat.add_comm 1 fuel]
        obtain ⟨hshown, hlast⟩ := ih (visitSearch_link _ hnumber) rfl
          ((find_turnTo hnumber).trans hfind) hfuel'
        rw [if_pos hmore, Option.elim_some]
        refine ⟨?_, ?_⟩
        · rw [List.flatMap_cons, hshown, hresults, hpage]
          exact Paging.page_append_drop params.pageSize k found
        · intro last hmem
          rw [readOn_succ (visitSearch_link _ hnumber), List.getLast?_cons_cons,
            ← readOn_succ (visitSearch_link _ hnumber)] at hmem
          exact hlast last hmem
      · rw [if_neg hmore] at hnext ⊢
        refine ⟨?_, ?_⟩
        · rw [Option.elim_none, List.flatMap_singleton, hresults, hpage]
          exact Paging.page_of_last (Nat.le_of_not_lt hmore)
        · intro last hlast
          obtain rfl := Option.some.inj hlast
          exact hnext

/-- Following the next button from any page of a search shows, in order, every
match that is not before that page, each once, and comes to an end. -/
theorem next_shows_every_match (scalars : QueryScalars)
    (library : SearchLibrary Row) (text : List Char)
    (params : SearchResultsQueryParams) (found : List Row) (fuel : Nat)
    (hread : SearchResultsQueryParams.read scalars (parseQsl text) =
      some params)
    (hfind : library.find params.albums params.wanted = .ok found)
    (hfuel : found.length ≤ (params.page + fuel) * params.pageSize) :
    (readOn scalars library (fuel + 1) text).flatMap
          SearchResultsPage.results =
        found.drop params.offset ∧
      ∀ last ∈ (readOn scalars library (fuel + 1) text).getLast?,
        last.button? .next = none := by
  have hvisit : visitSearch scalars library text =
      some (searchResultsFragment library params) := by
    rw [visitSearch, hread, Option.map_some]
  obtain ⟨k, hpage⟩ := Nat.exists_eq_add_of_le' params.page_pos
  have hoffset : params.offset = k * params.pageSize := by
    rw [SearchResultsQueryParams.offset, hpage, Paging.offset_succ]
  rw [hoffset]
  rw [hpage] at hfuel
  exact readOn_spec fuel hvisit hpage hfind hfuel

def plainScalars : QueryScalars where
  readInt text :=
    if text.all Char.isDigit then some (Nat.ofDigitChars 10 text 0) else none
  readBool text :=
    if text ∈ ["true".toList, "on".toList] then some true
    else if text = "false".toList then some false
    else none
  readInt_decimal n := by
    have hdigits : (decimal n).all Char.isDigit = true :=
      List.all_eq_true.mpr fun _ hc =>
        Nat.isDigit_of_mem_toDigits (by decide) (by decide) hc
    rw [if_pos hdigits, decimal, Nat.ofDigitChars_ten_toDigits]
  readBool_true := rfl
  readBool_false := rfl
  readBool_on := rfl

def threeTracks : SearchLibrary Nat where
  find _ parts :=
    if parts = some ["album:Abbey Road".toList] then .ok [1, 2, 3] else .ok []

def abbeyRoad : SearchResultsQueryParams where
  page := 1
  pageSize := 2
  page_pos := Nat.le_of_ble_eq_true rfl
  pageSize_pos := Nat.le_of_ble_eq_true rfl
  pageSize_le := Nat.le_of_ble_eq_true rfl
  query := "album:'Abbey Road'".toList
  albums := false
  filepath := none
  sortBy := none

/-- Two pages of two show three tracks. -/
theorem next_shows_three_tracks :
    (readOn plainScalars threeTracks 2
      (urlencode (abbeyRoad.linkPairs 1))).flatMap
        SearchResultsPage.results = [1, 2, 3] := by
  have hread : SearchResultsQueryParams.read plainScalars
      (parseQsl (urlencode (abbeyRoad.linkPairs 1))) =
        some (abbeyRoad.turnTo 1 (by decide)) := by
    rw [parseQsl_urlencode]
    exact read_linkPairs _
  exact (next_shows_every_match plainScalars threeTracks _ _ [1, 2, 3] 1 hread
    rfl (by decide)).1

end Walk

section Previous

variable {Row : Type} {library : SearchLibrary Row}
  {params : SearchResultsQueryParams}

theorem fragment_turnTo_self :
    searchResultsFragment library
        (params.turnTo params.page params.page_pos) =
      searchResultsFragment library params := by
  have hbase : (params.turnTo params.page params.page_pos).basePairs =
      params.basePairs := rfl
  simp only [searchResultsFragment, parts_turnTo, hbase]
  rfl

/-- A page with a next button was found by beets, and the page behind the
button is not empty. -/
theorem of_next_button {link : List Char}
    (hnext : (searchResultsFragment library params).button? .next =
      some link) :
    ∃ k found, params.page = k + 1 ∧
      library.find params.albums params.wanted = .ok found ∧
      (k + 1) * params.pageSize < found.length ∧
      link = (searchResultsFragment library params).link (k + 2) := by
  obtain ⟨k, hpage⟩ := Nat.exists_eq_add_of_le' params.page_pos
  cases hfind : library.find params.albums params.wanted with
  | error text =>
      have hnone : (searchResultsFragment library params).results = [] := by
        have hanswer : library.queryMethod params.albums params.parts
            params.offset (some params.pageSize) = .error text := by
          rw [SearchResultsQueryParams.wanted] at hfind
          rw [SearchLibrary.queryMethod, hfind]
          rfl
        simp only [searchResultsFragment, hanswer]
      rw [SearchResultsPage.button?] at hnext
      simp [hnone] at hnext
  | ok found =>
      rw [button?_next hpage hfind] at hnext
      split at hnext
      · rename_i hmore
        exact ⟨k, found, hpage, rfl, hmore, (Option.some.inj hnext).symm⟩
      · cases hnext

/-- The next button leads to a page whose previous button leads back: to the
same rows under the same heading, with the same buttons. -/
theorem previous_undoes_next (scalars : QueryScalars)
    (library : SearchLibrary Row) (text link : List Char)
    (page : SearchResultsPage Row)
    (hvisit : visitSearch scalars library text = some page)
    (hnext : page.button? .next = some link) :
    ∃ after back, visitSearch scalars library link = some after ∧
      after.button? .previous = some back ∧
      visitSearch scalars library back = some page := by
  obtain ⟨params, hread, rfl⟩ := Option.map_eq_some_iff.mp hvisit
  obtain ⟨k, found, hpage, hfind, hmore, rfl⟩ := of_next_button hnext
  have hnumber : 1 ≤ k + 2 := by omega
  have hbehind := (find_turnTo hnumber).trans hfind
  have hprevious : (searchResultsFragment library
      (params.turnTo (k + 2) hnumber)).button? .previous =
        some ((searchResultsFragment library
          (params.turnTo (k + 2) hnumber)).link params.page) := by
    have hshown := results_ne_nil (k := k + 1) rfl hbehind hmore
    have herror := (fragment_of_find hbehind).2.2
    rw [SearchResultsPage.button?, herror, if_neg (by simp)]
    have hpast : 1 < k + 2 := by omega
    rw [hpage]
    exact if_pos ⟨hshown, hpast⟩
  refine ⟨_, _, visitSearch_link _ hnumber, hprevious, ?_⟩
  rw [visitSearch_link _ params.page_pos, turnTo_turnTo, fragment_turnTo_self]

/-- From the first two tracks to the third one and back. -/
theorem previous_undoes_next_two_tracks :
    ∃ after back,
      visitSearch plainScalars threeTracks
          ((searchResultsFragment threeTracks abbeyRoad).link 2) =
        some after ∧
      after.button? .previous = some back ∧
      visitSearch plainScalars threeTracks back =
        some (searchResultsFragment threeTracks
          (abbeyRoad.turnTo 1 (by decide))) := by
  have hnext : (searchResultsFragment threeTracks
      (abbeyRoad.turnTo 1 (by decide))).button? .next =
        some ((searchResultsFragment threeTracks abbeyRoad).link 2) := by
    have hfind : threeTracks.find (abbeyRoad.turnTo 1 (by decide)).albums
        (abbeyRoad.turnTo 1 (by decide)).wanted = .ok [1, 2, 3] := rfl
    exact button?_next (k := 0) rfl hfind
  exact previous_undoes_next plainScalars threeTracks _ _ _
    (visitSearch_link abbeyRoad (by decide)) hnext

end Previous

section Api

/-- `ListQueryParamsModel`; the text of a path is never empty. -/
structure ListQueryParams extends PageQueryParams where
  albums : Bool
  keyword : Option (List (List Char))
  field : Option (List (List Char))
  phrase : Option (List Char)
  filepath : Option (List Char)
  sortBy : Option (List Char)
  filepath_ne : ∀ path ∈ filepath, path ≠ []

def ListQueryParams.queryParts (params : ListQueryParams) :
    List (List Char) :=
  params.keyword.getD [] ++ params.field.getD [] ++ given params.phrase ++
    params.filepath.toList ++ given params.sortBy

variable {Row : Type}

/-- `list_`. -/
def list_ (library : SearchLibrary Row) (params : ListQueryParams) :
    Except String (List Row) :=
  (library.queryMethod params.albums params.queryParts
    (Paging.offset params.pageSize params.page)
    (some params.pageSize)).map Prod.fst

/-- The rows a page shows, or its error. -/
def SearchResultsPage.outcome (page : SearchResultsPage Row) :
    Except String (List Row) :=
  match page.error with
  | none => .ok page.results
  | some text => .error text

theorem outcome_fragment (library : SearchLibrary Row)
    (params : SearchResultsQueryParams) :
    (searchResultsFragment library params).outcome =
      (library.queryMethod params.albums params.parts params.offset
        (some params.pageSize)).map Prod.fst := by
  unfold SearchResultsPage.outcome searchResultsFragment
  cases library.queryMethod params.albums params.parts params.offset
    (some params.pageSize) with
  | ok answer => rfl
  | error text => rfl

/-- The search that asks beets for the same parts. -/
def ListQueryParams.search (params : ListQueryParams) :
    SearchResultsQueryParams :=
  { params.toPageQueryParams with
    query := ShellWords.join
      (params.keyword.getD [] ++ params.field.getD [] ++ given params.phrase)
    albums := params.albums
    filepath := params.filepath
    sortBy := params.sortBy }

theorem parts_search (params : ListQueryParams) :
    params.search.parts = params.queryParts := by
  have hpath : given params.filepath = params.filepath.toList := by
    have hne := params.filepath_ne
    cases hfilepath : params.filepath with
    | none => rfl
    | some path =>
        exact if_neg (by simpa using hne path hfilepath)
  simp only [SearchResultsQueryParams.parts, ListQueryParams.search,
    buildQueryParts, ShellWords.split_join, hpath, ListQueryParams.queryParts]

/-- Whatever the API route can be asked for, the search page can be asked for
too: a text can be typed for which it shows the same rows or the same error. -/
theorem search_page_covers_api (scalars : QueryScalars)
    (library : SearchLibrary Row) (params : ListQueryParams) :
    ∃ text page, visitSearch scalars library text = some page ∧
      page.outcome = list_ library params ∧ page.page = params.page := by
  refine ⟨_, _, visitSearch_link params.search params.page_pos, ?_, rfl⟩
  rw [outcome_fragment, parts_turnTo, parts_search]
  rfl

end Api

end Beetkeeper
