/-
The inferred source paths: one row for an entry, replaced by a fresh lookup
and moved or dropped after a clean slate.
-/
import Beetkeeper.KeyedTable
import Beetkeeper.ImportJobs

namespace Beetkeeper

/-- What an inference is about: `subject_type` and `beets_id`. -/
abbrev InferenceKey := CleanSlateSubject × Nat

/-- A row of `inferred_source_path`, without its surrogate id. -/
structure InferredSourcePath where
  subjectType : CleanSlateSubject
  beetsId : Nat
  sourcePath : String
  method : String
  queryParams : Option StrDict
  inferredAt : Int
deriving Repr, DecidableEq

def InferredSourcePath.key (row : InferredSourcePath) : InferenceKey :=
  (row.subjectType, row.beetsId)

/-- The table under `uq_inferred_source_path_subject`. -/
abbrev InferenceTable := KeyedTable InferredSourcePath InferredSourcePath.key

/-- The table as a finite map to paths. -/
def InferenceTable.paths (table : InferenceTable) (key : InferenceKey) :
    Option String :=
  (table.get? key).map InferredSourcePath.sourcePath

/-- `record_inferred_source_path`; nothing when the constraint refuses the
row. -/
def recordInferredSourcePath (table : InferenceTable)
    (subject : CleanSlateSubject) (beetsId : Nat) (sourcePath : String)
    (queryParams : StrDict) (now : Int) : Option InferenceTable :=
  (table.delete (subject, beetsId)).insert?
    { subjectType := subject
      beetsId := beetsId
      sourcePath := sourcePath
      method := "downloader_hook"
      queryParams := some queryParams
      inferredAt := now }

/-- `stale_track_ids`. -/
def staleTrackIds (subject : CleanSlateSubject) (oldId : Nat)
    (oldItemIds : List Nat) : List Nat :=
  oldItemIds.filter fun id => decide ¬ (subject = .track ∧ id = oldId)

/-- The delete of the stale track inferences. -/
def dropStaleTracks (table : InferenceTable) (subject : CleanSlateSubject)
    (oldId : Nat) (oldItemIds : List Nat) : InferenceTable :=
  table.deleteWhere fun row => decide (row.subjectType = .track ∧
    row.beetsId ∈ staleTrackIds subject oldId oldItemIds)

/-- `retarget_inferred_source_paths`; nothing when the constraint refuses the
moved row. -/
def retargetInferredSourcePaths (table : InferenceTable)
    (subject : CleanSlateSubject) (oldId : Nat) (newId : Option Nat)
    (oldItemIds : List Nat) : Option InferenceTable :=
  match (dropStaleTracks table subject oldId oldItemIds).get?
      (subject, oldId), newId with
  | none, _ => some (dropStaleTracks table subject oldId oldItemIds)
  | some _, none =>
      some ((dropStaleTracks table subject oldId oldItemIds).delete
        (subject, oldId))
  | some row, some newId =>
      if newId = oldId then
        some (dropStaleTracks table subject oldId oldItemIds)
      else
        ((dropStaleTracks table subject oldId oldItemIds).delete
          (subject, newId)).rekey? row { row with beetsId := newId }

/-- What moving an entry's inference asks of the map: the new id takes over
what the old one held, nothing stays under the old id or the old tracks' ids,
and no other entry changes. -/
structure Retargets (before after : InferenceKey → Option String)
    (subject : CleanSlateSubject) (oldId : Nat) (newId : Option Nat)
    (oldItemIds : List Nat) : Prop where
  moved : ∀ id, newId = some id →
    after (subject, id) = before (subject, oldId)
  dropped : newId ≠ some oldId → after (subject, oldId) = none
  tracks : ∀ id ∈ oldItemIds, ¬ (subject = .track ∧ newId = some id) →
    after (.track, id) = none
  others : ∀ key, key ≠ (subject, oldId) →
    (∀ id, newId = some id → key ≠ (subject, id)) →
    (∀ id ∈ oldItemIds, key ≠ (.track, id)) → after key = before key

/-- No inference stands in the place of one that is missing: the old entry had
one, or the new id is the old one, or the new id holds none that outlives the
stale tracks. -/
def NoStaleTarget (before : InferenceKey → Option String)
    (subject : CleanSlateSubject) (oldId : Nat) (newId : Option Nat)
    (oldItemIds : List Nat) : Prop :=
  ∀ id, newId = some id → before (subject, oldId) = none →
    id = oldId ∨ before (subject, id) = none ∨
      (subject = .track ∧ id ∈ oldItemIds)

section

variable (table : InferenceTable) (subject : CleanSlateSubject) (oldId : Nat)
  (oldItemIds : List Nat)

/-- The keys the first delete takes. -/
def IsStale (key : InferenceKey) : Prop :=
  key.1 = .track ∧ key.2 ∈ staleTrackIds subject oldId oldItemIds

instance (key : InferenceKey) :
    Decidable (IsStale subject oldId oldItemIds key) :=
  inferInstanceAs (Decidable (_ ∧ _))

theorem isStale_iff {kind : CleanSlateSubject} {id : Nat} :
    IsStale subject oldId oldItemIds (kind, id) ↔
      kind = .track ∧ id ∈ oldItemIds ∧ ¬ (subject = .track ∧ id = oldId) := by
  rw [IsStale, staleTrackIds, List.mem_filter, decide_eq_true_iff]

theorem not_isStale_old :
    ¬ IsStale subject oldId oldItemIds (subject, oldId) := by
  rw [isStale_iff]
  rintro ⟨htrack, _, hother⟩
  exact hother ⟨htrack, rfl⟩

/-- Every track of the old entry is stale but the old entry itself. -/
theorem isStale_of_mem {id : Nat} (hid : id ∈ oldItemIds)
    (hother : (CleanSlateSubject.track, id) ≠ (subject, oldId)) :
    IsStale subject oldId oldItemIds (.track, id) := by
  rw [isStale_iff]
  refine ⟨rfl, hid, ?_⟩
  rintro ⟨rfl, rfl⟩
  exact hother rfl

/-- Only tracks of the old entry are stale. -/
theorem not_isStale_of_not_mem {key : InferenceKey}
    (htracks : ∀ id ∈ oldItemIds, key ≠ (.track, id)) :
    ¬ IsStale subject oldId oldItemIds key := by
  obtain ⟨kind, id⟩ := key
  rw [isStale_iff]
  rintro ⟨rfl, hid, _⟩
  exact htracks id hid rfl

theorem get?_dropStaleTracks (key : InferenceKey) :
    (dropStaleTracks table subject oldId oldItemIds).get? key =
      if IsStale subject oldId oldItemIds key then none
      else table.get? key := by
  rw [dropStaleTracks, KeyedTable.get?_deleteWhere]
  cases hget : table.get? key with
  | none => simp
  | some row =>
      have hkey : row.key = key := KeyedTable.get?_key hget
      have hcond : (row.subjectType = .track ∧
          row.beetsId ∈ staleTrackIds subject oldId oldItemIds) ↔
          IsStale subject oldId oldItemIds key := by
        rw [← hkey]
        exact Iff.rfl
      by_cases hstale : IsStale subject oldId oldItemIds key
      · rw [Option.filter_some, decide_eq_true (hcond.mpr hstale),
          if_pos hstale]
        rfl
      · rw [Option.filter_some, decide_eq_false (hcond.not.mpr hstale),
          if_neg hstale]
        rfl

theorem get?_dropStaleTracks_old :
    (dropStaleTracks table subject oldId oldItemIds).get? (subject, oldId) =
      table.get? (subject, oldId) := by
  rw [get?_dropStaleTracks, if_neg (not_isStale_old subject oldId oldItemIds)]

/-- Without a row under the old id only the stale tracks go. -/
theorem retarget_of_absent (newId : Option Nat)
    (hold : table.get? (subject, oldId) = none) :
    retargetInferredSourcePaths table subject oldId newId oldItemIds =
      some (dropStaleTracks table subject oldId oldItemIds) := by
  unfold retargetInferredSourcePaths
  rw [get?_dropStaleTracks_old, hold]

theorem newKey_ne {newId : Option Nat} {key : InferenceKey}
    (hother : ∀ id, newId = some id → key ≠ (subject, id)) :
    newId.map (Prod.mk subject) ≠ some key := by
  intro heq
  obtain ⟨id, hid, hkey⟩ := Option.map_eq_some_iff.mp heq
  exact hother id hid hkey.symm

/-- A row under the old id moves to the new one, or goes. -/
theorem retarget_of_present (newId : Option Nat) {row : InferredSourcePath}
    (hold : table.get? (subject, oldId) = some row) :
    ∃ after, retargetInferredSourcePaths table subject oldId newId oldItemIds =
        some after ∧
      ∀ key, after.get? key =
        if newId.map (Prod.mk subject) = some key then
          some { row with beetsId := key.2 }
        else if key = (subject, oldId) then none
        else (dropStaleTracks table subject oldId oldItemIds).get? key := by
  have hkey : row.key = (subject, oldId) := KeyedTable.get?_key hold
  have hsubject : row.subjectType = subject := congrArg Prod.fst hkey
  have hid : row.beetsId = oldId := congrArg Prod.snd hkey
  unfold retargetInferredSourcePaths
  rw [get?_dropStaleTracks_old, hold]
  cases newId with
  | none =>
      refine ⟨_, rfl, fun key => ?_⟩
      rw [KeyedTable.get?_delete]
      simp
  | some newId =>
      by_cases hsame : newId = oldId
      · simp only [if_pos hsame]
        refine ⟨_, rfl, fun key => ?_⟩
        by_cases hnew : key = (subject, oldId)
        · subst hnew
          rw [get?_dropStaleTracks_old, hold, hsame, if_pos rfl]
          simp [← hid]
        · have hother : (some newId).map (Prod.mk subject) ≠ some key := by
            apply newKey_ne
            rintro _ ⟨⟩
            rw [hsame]
            exact hnew
          rw [if_neg hother, if_neg hnew]
      · simp only [if_neg hsame]
        have hnewKey : ({ row with beetsId := newId } :
            InferredSourcePath).key = (subject, newId) := by
          rw [InferredSourcePath.key, hsubject]
        obtain ⟨after, hafter⟩ := @KeyedTable.exists_rekey? _ _ _ _
          ((dropStaleTracks table subject oldId oldItemIds).delete
            (subject, newId)) row { row with beetsId := newId } (by
            intro _
            rw [KeyedTable.get?_delete, hnewKey, if_pos rfl])
        refine ⟨after, hafter, fun key => ?_⟩
        rw [KeyedTable.get?_rekey? hafter, hnewKey, hkey,
          KeyedTable.get?_delete]
        by_cases hnew : (subject, newId) = key
        · subst hnew
          simp
        · simp [hnew, Ne.symm hnew]

/-- A row under the old id is retargeted as it should be. -/
theorem retargets_of_present (newId : Option Nat) {row : InferredSourcePath}
    (hold : table.get? (subject, oldId) = some row) :
    ∃ after, retargetInferredSourcePaths table subject oldId newId oldItemIds =
        some after ∧
      Retargets table.paths after.paths subject oldId newId oldItemIds := by
  obtain ⟨after, hafter, hget⟩ :=
    retarget_of_present table subject oldId oldItemIds newId hold
  refine ⟨after, hafter, ?_⟩
  constructor
  · intro id hnew
    rw [InferenceTable.paths, InferenceTable.paths, hget, hold, hnew]
    simp
  · intro hother
    have hne : newId.map (Prod.mk subject) ≠ some (subject, oldId) := by
      apply newKey_ne
      rintro id hid ⟨⟩
      exact hother hid
    rw [InferenceTable.paths, hget, if_neg hne, if_pos rfl]
    rfl
  · intro id hid hother
    have hne : newId.map (Prod.mk subject) ≠ some (.track, id) := by
      apply newKey_ne
      rintro id' hnew ⟨⟩
      exact hother ⟨rfl, hnew⟩
    rw [InferenceTable.paths, hget, if_neg hne]
    by_cases hkey : (CleanSlateSubject.track, id) = (subject, oldId)
    · rw [if_pos hkey]
      rfl
    · rw [if_neg hkey, get?_dropStaleTracks,
        if_pos (isStale_of_mem subject oldId oldItemIds hid hkey)]
      rfl
  · intro key hold' hnew htracks
    have hne : newId.map (Prod.mk subject) ≠ some key :=
      newKey_ne subject hnew
    have hfresh : ¬ IsStale subject oldId oldItemIds key :=
      not_isStale_of_not_mem subject oldId oldItemIds htracks
    rw [InferenceTable.paths, InferenceTable.paths, hget, if_neg hne,
      if_neg hold', get?_dropStaleTracks, if_neg hfresh]

theorem paths_dropStaleTracks (key : InferenceKey) :
    (dropStaleTracks table subject oldId oldItemIds).paths key =
      if IsStale subject oldId oldItemIds key then none
      else table.paths key := by
  rw [InferenceTable.paths, get?_dropStaleTracks]
  split
  · rfl
  · rfl

/-- Where the old entry had no inference, none of its tracks keeps one. -/
theorem paths_dropStaleTracks_track {id : Nat} (hid : id ∈ oldItemIds)
    (hold : table.paths (subject, oldId) = none) :
    (dropStaleTracks table subject oldId oldItemIds).paths (.track, id) =
      none := by
  rw [paths_dropStaleTracks]
  by_cases hkey : (CleanSlateSubject.track, id) = (subject, oldId)
  · rw [hkey, hold, ite_self]
  · rw [if_pos (isStale_of_mem subject oldId oldItemIds hid hkey)]

/-- Where the old entry had no inference, the new id must hold none either. -/
theorem retargets_dropStaleTracks_iff (newId : Option Nat)
    (hold : table.paths (subject, oldId) = none) :
    Retargets table.paths (dropStaleTracks table subject oldId oldItemIds).paths
        subject oldId newId oldItemIds ↔
      NoStaleTarget table.paths subject oldId newId oldItemIds := by
  constructor
  · intro hretargets id hnew _
    have hmoved := hretargets.moved id hnew
    rw [hold, paths_dropStaleTracks] at hmoved
    by_cases hstale : IsStale subject oldId oldItemIds (subject, id)
    · obtain ⟨hsubject, hid, _⟩ :=
        (isStale_iff subject oldId oldItemIds).mp hstale
      exact Or.inr (Or.inr ⟨hsubject, hid⟩)
    · rw [if_neg hstale] at hmoved
      exact Or.inr (Or.inl hmoved)
  · intro hclean
    have hdropped : (dropStaleTracks table subject oldId oldItemIds).paths
        (subject, oldId) = none := by
      rw [paths_dropStaleTracks, hold, ite_self]
    constructor
    · intro id hnew
      rw [hold]
      rcases hclean id hnew hold with rfl | hnone | ⟨hsubject, hid⟩
      · exact hdropped
      · rw [paths_dropStaleTracks, hnone, ite_self]
      · rw [hsubject] at hold ⊢
        exact paths_dropStaleTracks_track table .track oldId oldItemIds hid
          hold
    · intro _
      exact hdropped
    · intro id hid _
      exact paths_dropStaleTracks_track table subject oldId oldItemIds hid
        hold
    · intro key _ _ htracks
      rw [paths_dropStaleTracks,
        if_neg (not_isStale_of_not_mem subject oldId oldItemIds htracks)]

/-- The call moves the map as asked exactly when no stale inference stands
under the new id in place of a missing one. -/
theorem retargets_iff_noStaleTarget (newId : Option Nat) :
    (∃ after, retargetInferredSourcePaths table subject oldId newId
          oldItemIds = some after ∧
        Retargets table.paths after.paths subject oldId newId oldItemIds) ↔
      NoStaleTarget table.paths subject oldId newId oldItemIds := by
  cases hold : table.get? (subject, oldId) with
  | some row =>
      have hpath : table.paths (subject, oldId) ≠ none := by
        rw [InferenceTable.paths, hold]
        simp
      exact iff_of_true
        (retargets_of_present table subject oldId oldItemIds newId hold)
        fun id _ hnone => absurd hnone hpath
  | none =>
      have hpath : table.paths (subject, oldId) = none := by
        rw [InferenceTable.paths, hold]
        rfl
      rw [retarget_of_absent table subject oldId oldItemIds newId hold,
        ← retargets_dropStaleTracks_iff table subject oldId oldItemIds newId
          hpath]
      simp

end

/-- The calls that write the table. -/
inductive InferenceCall where
  | record (subject : CleanSlateSubject) (beetsId : Nat) (sourcePath : String)
      (queryParams : StrDict) (now : Int)
  | retarget (subject : CleanSlateSubject) (oldId : Nat) (newId : Option Nat)
      (oldItemIds : List Nat)
deriving Repr, DecidableEq

def InferenceCall.run (table : InferenceTable) :
    InferenceCall → Option InferenceTable
  | .record subject beetsId sourcePath queryParams now =>
      recordInferredSourcePath table subject beetsId sourcePath queryParams now
  | .retarget subject oldId newId oldItemIds =>
      retargetInferredSourcePaths table subject oldId newId oldItemIds

/-- Calls one after another; nothing once the constraint refuses one. -/
def runInferenceCalls : InferenceTable → List InferenceCall →
    Option InferenceTable
  | table, [] => some table
  | table, call :: rest =>
      (call.run table).bind fun next => runInferenceCalls next rest

theorem exists_retarget (table : InferenceTable) (subject : CleanSlateSubject)
    (oldId : Nat) (newId : Option Nat) (oldItemIds : List Nat) :
    ∃ after, retargetInferredSourcePaths table subject oldId newId
      oldItemIds = some after := by
  cases hold : table.get? (subject, oldId) with
  | none =>
      exact ⟨_, retarget_of_absent table subject oldId oldItemIds newId hold⟩
  | some row =>
      obtain ⟨after, hafter, _⟩ :=
        retarget_of_present table subject oldId oldItemIds newId hold
      exact ⟨after, hafter⟩

/-- The delete before it keeps the insert from being refused. -/
theorem exists_record (table : InferenceTable) (subject : CleanSlateSubject)
    (beetsId : Nat) (sourcePath : String) (queryParams : StrDict)
    (now : Int) :
    ∃ after, recordInferredSourcePath table subject beetsId sourcePath
      queryParams now = some after := by
  apply KeyedTable.exists_insert?
  rw [KeyedTable.get?_delete]
  exact if_pos rfl

/-- A fresh lookup replaces the entry's path and no other. -/
theorem paths_record {table after : InferenceTable}
    {subject : CleanSlateSubject} {beetsId : Nat} {sourcePath : String}
    {queryParams : StrDict} {now : Int}
    (hrecord : recordInferredSourcePath table subject beetsId sourcePath
      queryParams now = some after) (key : InferenceKey) :
    after.paths key =
      if (subject, beetsId) = key then some sourcePath
      else table.paths key := by
  rw [InferenceTable.paths, KeyedTable.get?_insert? hrecord,
    KeyedTable.get?_delete]
  by_cases hkey : (subject, beetsId) = key
  · simp [InferredSourcePath.key, hkey]
  · simp [InferredSourcePath.key, hkey, Ne.symm hkey, InferenceTable.paths]

theorem InferenceCall.exists_run (table : InferenceTable)
    (call : InferenceCall) : ∃ after, call.run table = some after := by
  cases call with
  | record subject beetsId sourcePath queryParams now =>
      exact exists_record table subject beetsId sourcePath queryParams now
  | retarget subject oldId newId oldItemIds =>
      exact exists_retarget table subject oldId newId oldItemIds

/-- No sequence of calls meets the constraint. -/
theorem exists_runInferenceCalls (table : InferenceTable)
    (calls : List InferenceCall) :
    ∃ after, runInferenceCalls table calls = some after := by
  induction calls generalizing table with
  | nil => exact ⟨table, rfl⟩
  | cons call rest ih =>
      obtain ⟨next, hnext⟩ := call.exists_run table
      obtain ⟨after, hafter⟩ := ih next
      refine ⟨after, ?_⟩
      rw [runInferenceCalls, hnext]
      exact hafter

/-- A retarget call moves the map as asked exactly when no stale inference
stands under the new id in place of a missing one, and no sequence of calls is
refused or leaves two rows under one key. -/
theorem inferredPaths_retarget_iff (table : InferenceTable)
    (subject : CleanSlateSubject) (oldId : Nat) (newId : Option Nat)
    (oldItemIds : List Nat) (calls : List InferenceCall) :
    ((∃ after, retargetInferredSourcePaths table subject oldId newId
            oldItemIds = some after ∧
          Retargets table.paths after.paths subject oldId newId oldItemIds) ↔
        NoStaleTarget table.paths subject oldId newId oldItemIds) ∧
      ∃ after, runInferenceCalls table calls = some after ∧
        (after.rows.map InferredSourcePath.key).Nodup := by
  constructor
  · exact retargets_iff_noStaleTarget table subject oldId oldItemIds newId
  · obtain ⟨after, hafter⟩ := exists_runInferenceCalls table calls
    exact ⟨after, hafter, after.keys_nodup⟩

/-- An album removed without an inference, imported afresh under an id that an
older inference was left under. -/
theorem inferredPaths_retarget_counterexample :
    let table : InferenceTable :=
      ⟨[⟨.album, 8, "/dl/stale", "downloader_hook", none, 0⟩], by simp⟩
    retargetInferredSourcePaths table .album 3 (some 8) [] = some table ∧
      ¬ ∃ after, retargetInferredSourcePaths table .album 3 (some 8) [] =
          some after ∧
        Retargets table.paths after.paths .album 3 (some 8) [] := by
  intro table
  constructor
  · rfl
  · rintro ⟨after, hafter, hretargets⟩
    have hmoved := hretargets.moved 8 rfl
    have hsame : table = after := Option.some.inj hafter
    rw [← hsame] at hmoved
    simp [table, InferenceTable.paths, KeyedTable.get?,
      InferredSourcePath.key] at hmoved

end Beetkeeper
