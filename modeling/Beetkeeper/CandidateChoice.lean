/-
The choice of a match for one import task: the request that shows the task's
candidates, the buttons the fragment renders for it, and what `_choose` makes
of the answer.
-/
import Beetkeeper.ImportConfig
import Beetkeeper.ImportWorker

namespace Beetkeeper

/-- The exception of a list subscript out of range. -/
inductive IndexError where
  | indexError
deriving Repr, DecidableEq

/-- The position an index names: a negative one counts from the end. -/
def position (length : Nat) (index : Int) : Int :=
  if 0 ≤ index then index else length + index

/-- `values[index]`. -/
def subscript {α : Type} (values : List α) (index : Int) :
    Except IndexError α :=
  if h : 0 ≤ position values.length index ∧
      position values.length index < values.length then
    .ok (values.get ⟨(position values.length index).toNat, by omega⟩)
  else .error .indexError

theorem subscript_natCast {α : Type} (values : List α) {i : Nat}
    (hi : i < values.length) : subscript values i = .ok values[i] := by
  simp [subscript, position, hi]

/-- A subscript raises exactly out of range, on either side. -/
theorem subscript_eq_error_iff {α : Type} (values : List α) (index : Int) :
    subscript values index = .error .indexError ↔
      index < -values.length ∨ (values.length : Int) ≤ index := by
  have hposition : (0 ≤ position values.length index ∧
      position values.length index < values.length) ↔
      ¬ (index < -values.length ∨ (values.length : Int) ≤ index) := by
    unfold position
    split <;> omega
  unfold subscript
  by_cases hin : 0 ≤ position values.length index ∧
      position values.length index < values.length
  · rw [dif_pos hin]
    exact iff_of_false (by simp) (hposition.mp hin)
  · rw [dif_neg hin]
    exact iff_of_true rfl (not_not.mp fun hout => hin (hposition.mpr hout))

theorem exists_subscript_ok {α : Type} {values : List α} {index : Int}
    (hlow : -values.length ≤ index) (hhigh : index < values.length) :
    ∃ value, subscript values index = .ok value := by
  cases hvalue : subscript values index with
  | ok value => exact ⟨value, rfl⟩
  | error e =>
      have hout := (subscript_eq_error_iff values index).mp hvalue
      omega

/-- How sure beets is of a task's best match. -/
inductive Recommendation where
  | none
  | low
  | medium
  | strong
deriving Repr, DecidableEq

/-- The part of a singleton task's item that its label reads. -/
structure TaskItem where
  artist : Option String
  title : Option String
deriving Repr, DecidableEq

/-- What `_choose` reads of a beets task; the matches are sorted best first. -/
structure MatchTask (Match : Type) where
  taskId : String
  curArtist : Option String
  curAlbum : Option String
  item : Option TaskItem
  candidates : List Match
  rec? : Option Recommendation

/-- What a candidate shows of a beets `AlbumMatch`: the formatted attributes of
its `info`. -/
structure AlbumMatch where
  artist : Option String
  album : Option String
deriving Repr, DecidableEq

/-- What a candidate shows of a beets `TrackMatch`. -/
structure TrackMatch where
  artist : Option String
  title : Option String
deriving Repr, DecidableEq

/-- `value or '?'` in a label. -/
def orUnknown : Option String → String
  | none => "?"
  | some text => if text = "" then "?" else text

/-- `_album_label`. -/
def albumLabel {Match : Type} (task : MatchTask Match) : String :=
  s!"{orUnknown task.curArtist} - {orUnknown task.curAlbum}"

/-- `_track_label`. -/
def trackLabel (item : Option TaskItem) : String :=
  let artist := orUnknown (item.bind TaskItem.artist)
  let title := orUnknown (item.bind TaskItem.title)
  s!"{artist} - {title}"

/-- The label of a candidate; an attribute that is absent shows as `?`. -/
def candidateLabel (artist name : Option String) : String :=
  artist.getD "?" ++ " - " ++ name.getD "?"

/-- `_album_candidate`. -/
def albumCandidate (index : Nat) (info : AlbumMatch) : ImportCandidate where
  index := index
  label := candidateLabel info.artist info.album

/-- `_track_candidate`. -/
def trackCandidate (index : Nat) (info : TrackMatch) : ImportCandidate where
  index := index
  label := candidateLabel info.artist info.title

/-- The functions `choose_match` and `choose_item` hand to `_choose`.  A
candidate carries the index it was built for.  `buildDiff` stands for
`_build_album_diff` and `_build_track_diff`, which only write lines about a
match, similarities in floating point among them: what is proved holds
whatever they write. -/
structure MatchKind (Match : Type) where
  prompt : String
  label : MatchTask Match → String
  toCandidate : Nat → Match → ImportCandidate
  buildDiff : MatchTask Match → Match → List String
  index_toCandidate : ∀ index chosen, (toCandidate index chosen).index = index

/-- The arguments of `choose_match`. -/
def MatchKind.album (buildDiff : MatchTask AlbumMatch → AlbumMatch →
    List String) : MatchKind AlbumMatch where
  prompt := "Choose a match for this album."
  label := albumLabel
  toCandidate := albumCandidate
  buildDiff := buildDiff
  index_toCandidate _ _ := rfl

/-- The arguments of `choose_item`. -/
def MatchKind.track (buildDiff : MatchTask TrackMatch → TrackMatch →
    List String) : MatchKind TrackMatch where
  prompt := "Choose a match for this track."
  label task := trackLabel task.item
  toCandidate := trackCandidate
  buildDiff := buildDiff
  index_toCandidate _ _ := rfl

/-- The actions `_choose` returns when it applies no match. -/
inductive TaskAction where
  | skip
  | asis
deriving Repr, DecidableEq

/-- What `_choose` returns: an action, or the match to apply. -/
inductive TaskChoice (Match : Type) where
  | act (action : TaskAction)
  | apply (chosen : Match)
deriving Repr, DecidableEq

/-- A call of `_choose`: the lines it appended, and what it returned or the
exception that left it and fails the job. -/
structure ChoiceRun (Match : Type) where
  output : List String
  result : Except IndexError (TaskChoice Match)

/-- A session's part in a choice: the job it runs, the number of its next
request, and the `import.quiet_fallback` setting, absent when it cannot be
read. -/
structure WebImportSession where
  job : ImportJob
  serial : Nat
  quietFallback : Option String
deriving Repr, DecidableEq

/-- What the loop answers through the portal. -/
structure Portal where
  abortRequested : Bool
  request : DecisionRequest → ImportDecision

/-- The same session for a job that is not quiet. -/
def WebImportSession.loud (session : WebImportSession) : WebImportSession :=
  { session with job := { session.job with quiet := false } }

/-- `_quiet_fallback_action`. -/
def WebImportSession.quietFallbackAction (session : WebImportSession) :
    TaskAction :=
  if session.quietFallback.getD "skip" = "asis" then .asis else .skip

section

variable {Match : Type} (kind : MatchKind Match) (session : WebImportSession)
  (portal : Portal) (task : MatchTask Match)

/-- The request `_choose` builds for a task. -/
def decisionRequest : DecisionRequest :=
  buildDecisionRequest session.job session.serial task.taskId kind.prompt
    (task.candidates.mapIdx kind.toCandidate)

/-- `_quiet_choice`: the best match when it is a strong one, otherwise the
configured fallback. -/
def quietChoice : ChoiceRun Match :=
  match task.candidates, task.rec? with
  | best :: _, some .strong =>
      ⟨s!"Quiet import: applying strong match for '{kind.label task}':" ::
        kind.buildDiff task best, .ok (.apply best)⟩
  | _, _ =>
      let outcome := match session.quietFallbackAction with
        | .asis => "importing as-is."
        | .skip => "skipping."
      ⟨[s!"Quiet import: no strong match for '{kind.label task}' — {outcome}"],
        .ok (.act session.quietFallbackAction)⟩

/-- The label the output names an index by. -/
def chosenLabel (request : DecisionRequest) (index : Int) :
    Except IndexError String :=
  if index < request.candidates.length then
    (subscript request.candidates index).map ImportCandidate.label
  else .ok s!"#{index}"

/-- The end of `_choose` for an answer that applies a candidate: the index
defaults to 0 by truthiness and then subscripts the task's matches. -/
def applyCandidate (request : DecisionRequest) (candidateIndex : Option Int) :
    ChoiceRun Match :=
  match chosenLabel request (candidateIndex.getD 0),
      subscript task.candidates (candidateIndex.getD 0) with
  | .ok chosen, .ok found =>
      ⟨s!"Applying candidate '{chosen}' to '{kind.label task}':" ::
        kind.buildDiff task found, .ok (.apply found)⟩
  | _, _ => ⟨[], .error .indexError⟩

/-- What `_choose` does with the answer to its request. -/
def carryOut (request : DecisionRequest) (decision : ImportDecision) :
    ChoiceRun Match :=
  match decision.action with
  | .skip => ⟨[s!"Skipped '{kind.label task}'."], .ok (.act .skip)⟩
  | .asis =>
      ⟨[s!"Importing '{kind.label task}' as-is (tags unchanged)."],
        .ok (.act .asis)⟩
  | .apply => applyCandidate kind task request decision.candidateIndex

/-- `_choose`. -/
def choose : ChoiceRun Match :=
  if portal.abortRequested then
    ⟨[s!"Skipping '{kind.label task}' (abort requested)."], .ok (.act .skip)⟩
  else if session.job.quiet then quietChoice kind session task
  else
    let request := decisionRequest kind session task
    let shown := request.candidates.length
    let run := carryOut kind task request (portal.request request)
    ⟨s!"Matching '{kind.label task}' — {shown} candidate(s); awaiting decision."
      :: run.output, run.result⟩

end

/-- The decisions the Apply buttons of a rendered request post, one a row
(`build_candidate_table`, `import_job.html`). -/
def applyButtons (request : DecisionRequest) : List ImportDecision :=
  request.candidates.map fun candidate =>
    ⟨.apply, some candidate.index, some request.serial⟩

section

variable {Match : Type} (kind : MatchKind Match) (session : WebImportSession)
  (task : MatchTask Match)

@[simp] theorem length_candidates_decisionRequest :
    (decisionRequest kind session task).candidates.length =
      task.candidates.length := by
  simp [decisionRequest, buildDecisionRequest]

/-- The request shows every match under its own index. -/
theorem getElem?_candidates_decisionRequest (i : Nat) :
    (decisionRequest kind session task).candidates[i]? =
      task.candidates[i]?.map (kind.toCandidate i) := by
  simp [decisionRequest, buildDecisionRequest]

theorem chosenLabel_natCast {request : DecisionRequest} {i : Nat}
    (hi : i < request.candidates.length) :
    chosenLabel request i = .ok request.candidates[i].label := by
  have hint : (i : Int) < request.candidates.length := by exact_mod_cast hi
  rw [chosenLabel, if_pos hint, subscript_natCast _ hi]
  rfl

/-- An index of a shown candidate applies the match shown under it. -/
theorem result_applyCandidate_natCast {i : Nat}
    (hi : i < task.candidates.length) :
    (applyCandidate kind task (decisionRequest kind session task)
      (some i)).result = .ok (.apply task.candidates[i]) := by
  have hshown : i <
      (decisionRequest kind session task).candidates.length := by
    rw [length_candidates_decisionRequest]
    exact hi
  simp only [applyCandidate, Option.getD_some, chosenLabel_natCast hshown,
    subscript_natCast _ hi]

/-- An answer that applies a candidate never ends in an action. -/
theorem result_applyCandidate_ne_act (request : DecisionRequest)
    (candidateIndex : Option Int) (action : TaskAction) :
    (applyCandidate kind task request candidateIndex).result ≠
      .ok (.act action) := by
  unfold applyCandidate
  split
  · simp
  · simp

theorem exists_chosenLabel_ok {request : DecisionRequest} {index : Int}
    (hrange : -request.candidates.length ≤ index) :
    ∃ label, chosenLabel request index = .ok label := by
  unfold chosenLabel
  by_cases hlt : index < request.candidates.length
  · obtain ⟨candidate, hcandidate⟩ := exists_subscript_ok hrange hlt
    rw [if_pos hlt, hcandidate]
    exact ⟨_, rfl⟩
  · rw [if_neg hlt]
    exact ⟨_, rfl⟩

/-- The exception leaves `_choose` exactly for an index out of Python's range,
an absent index counting as 0. -/
theorem result_applyCandidate_error_iff (candidateIndex : Option Int) :
    (applyCandidate kind task (decisionRequest kind session task)
        candidateIndex).result = .error .indexError ↔
      candidateIndex.getD 0 < -task.candidates.length ∨
        (task.candidates.length : Int) ≤ candidateIndex.getD 0 := by
  unfold applyCandidate
  generalize candidateIndex.getD 0 = index
  by_cases hraises : index < -task.candidates.length ∨
      (task.candidates.length : Int) ≤ index
  · rw [(subscript_eq_error_iff task.candidates index).mpr hraises]
    exact iff_of_true (by split <;> simp_all) hraises
  · obtain ⟨hlow, hhigh⟩ := not_or.mp hraises
    obtain ⟨found, hfound⟩ :=
      exists_subscript_ok (Int.not_lt.mp hlow) (Int.not_le.mp hhigh)
    have hlength := length_candidates_decisionRequest kind session task
    obtain ⟨label, hlabel⟩ := @exists_chosenLabel_ok
      (decisionRequest kind session task) index
      (by rw [hlength]; exact Int.not_lt.mp hlow)
    rw [hfound, hlabel]
    exact iff_of_false (by simp) hraises

/-- `_choose` in a session that is not quiet, for a job that was not aborted,
when the answer applies a candidate. -/
def chooseApply (candidateIndex : Option Int) (viewed : Option Nat) :
    ChoiceRun Match :=
  choose kind session.loud
    ⟨false, fun _ => ⟨.apply, candidateIndex, viewed⟩⟩ task

theorem result_chooseApply (candidateIndex : Option Int)
    (viewed : Option Nat) :
    (chooseApply kind session task candidateIndex viewed).result =
      (applyCandidate kind task
        (decisionRequest kind session.loud task)
        candidateIndex).result := by
  simp [chooseApply, choose, carryOut, WebImportSession.loud]

/-- What an answer that applies a candidate asks for: an index of the request
applies the match shown under it, and any other answer applies no match and
raises nothing. -/
structure HonoursIndex (candidateIndex : Option Int) (viewed : Option Nat) :
    Prop where
  shown : ∀ (i : Nat) (hi : i < task.candidates.length),
    candidateIndex = some (i : Int) →
    (decisionRequest kind session task).candidates[i]? =
        some (kind.toCandidate i task.candidates[i]) ∧
      (chooseApply kind session task candidateIndex viewed).result =
        .ok (.apply task.candidates[i])
  otherwise : (∀ i : Nat, i < task.candidates.length →
      candidateIndex ≠ some (i : Int)) →
    ∃ action, (chooseApply kind session task candidateIndex viewed).result =
      .ok (.act action)

/-- An answer that applies a candidate is honoured exactly when it names the
index of a candidate. -/
theorem honoursIndex_iff (candidateIndex : Option Int)
    (viewed : Option Nat) :
    HonoursIndex kind session task candidateIndex viewed ↔
      ∃ i : Nat, candidateIndex = some (i : Int) ∧
        i < task.candidates.length := by
  constructor
  · intro honours
    by_contra hnone
    push Not at hnone
    have hno : ∀ i : Nat, i < task.candidates.length →
        candidateIndex ≠ some (i : Int) := by
      intro i hi heq
      exact absurd hi (Nat.not_lt.mpr (hnone i heq))
    obtain ⟨action, hresult⟩ := honours.otherwise hno
    rw [result_chooseApply] at hresult
    exact result_applyCandidate_ne_act _ _ _ _ action hresult
  · rintro ⟨i, rfl, hi⟩
    constructor
    · intro j hj heq
      have hji : j = i := by
        have hint := Option.some.inj heq
        omega
      subst hji
      constructor
      · rw [getElem?_candidates_decisionRequest,
          List.getElem?_eq_getElem hj]
        rfl
      · rw [result_chooseApply]
        exact result_applyCandidate_natCast kind _ task hj
    · intro hno
      exact absurd rfl (hno i hi)

/-- Every button of a rendered request applies the match of its row. -/
theorem result_choose_applyButtons {i : Nat} {decision : ImportDecision}
    (hbutton : (applyButtons
      (decisionRequest kind session task))[i]? = some decision) :
    ∃ chosen, task.candidates[i]? = some chosen ∧
      (carryOut kind task (decisionRequest kind session task)
        decision).result = .ok (.apply chosen) := by
  rw [applyButtons, List.getElem?_map,
    getElem?_candidates_decisionRequest] at hbutton
  by_cases hi : i < task.candidates.length
  · refine ⟨task.candidates[i], List.getElem?_eq_getElem hi, ?_⟩
    rw [List.getElem?_eq_getElem hi] at hbutton
    have hdecision := Option.some.inj hbutton
    have hindex := kind.index_toCandidate i task.candidates[i]
    rw [← hdecision]
    simp only [carryOut, hindex]
    exact result_applyCandidate_natCast kind session task hi
  · rw [List.getElem?_eq_none (Nat.not_lt.mp hi)] at hbutton
    simp at hbutton

end

/-- A task whose only match an answer without an index applies, and which an
index past its end, or any index when there is no match, fails. -/
theorem honoursIndex_counterexample :
    let kind := MatchKind.album fun _ _ => []
    let session : WebImportSession := ⟨importJob 0 [], 0, none⟩
    let task : MatchTask AlbumMatch :=
      ⟨"task", none, none, none, [⟨some "artist", some "album"⟩], none⟩
    ¬ HonoursIndex kind session task none none ∧
      ¬ HonoursIndex kind session task (some (-1)) none ∧
      ¬ HonoursIndex kind session task (some 1) none := by
  intro kind session task
  refine ⟨?_, ?_, ?_⟩
  · intro honours
    obtain ⟨action, hresult⟩ := honours.otherwise (by simp)
    cases hresult
  · intro honours
    obtain ⟨action, hresult⟩ := honours.otherwise (by
      intro i hi heq
      have hint := Option.some.inj heq
      omega)
    cases hresult
  · intro honours
    obtain ⟨action, hresult⟩ := honours.otherwise (by
      intro i hi heq
      have hint := Option.some.inj heq
      have hone : i < 1 := hi
      omega)
    cases hresult

end Beetkeeper
