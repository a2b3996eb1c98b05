/-
The rows of the events page: the two pushes of one import are shown as one
row, and every other event as a row of its own.
-/
import Beetkeeper.EventListing
import Beetkeeper.GreedyPairing

namespace Beetkeeper

open GreedyPairing

structure EventDisplayRecord where
  eventLabel : String
  pushedAt : Int
  albums : List EventSubjectSummary
  tracks : List EventSubjectSummary
  sourcePaths : List String
  destinationPaths : List String
deriving Repr, DecidableEq

/-- `_MERGE_PARTNER_MAX_SKEW`, in microseconds. -/
def mergePartnerMaxSkew : Nat := 60000000

/-- `_MERGED_EVENT_LABELS`. -/
def mergedEventLabels : BeetsEventType → Option String
  | .albumImported => some "Album imported"
  | .trackImported => some "Singleton imported"
  | _ => none

/-- `_display_record`. -/
def displayRecord (eventRecord : ListenerEventDetails) :
    EventDisplayRecord where
  eventLabel := eventRecord.eventType.value
  pushedAt := eventRecord.pushedAt
  albums := eventRecord.albums
  tracks := eventRecord.tracks
  sourcePaths := eventRecord.sourcePaths
  destinationPaths := eventRecord.destinationPaths

/-- What a summary is known by: an `int`, a `str` or `None`. -/
inductive SubjectKey where
  | beetsId (id : Int)
  | name (text : String)
  | none
deriving Repr, DecidableEq

/-- `_subject_key`. -/
def subjectKey (summary : EventSubjectSummary) : SubjectKey :=
  match summary.beetsId, summary.name with
  | some id, _ => .beetsId id
  | none, some text => .name text
  | none, none => .none

/-- `_ordered_union`. -/
def orderedUnion (first second : List EventSubjectSummary) :
    List EventSubjectSummary :=
  first ++ second.filter fun summary =>
    subjectKey summary ∉ first.map subjectKey

/-- `_merged_display_record`; a type without a label is a `KeyError`. -/
def mergedDisplayRecord (eventRecord partner : ListenerEventDetails) :
    Option EventDisplayRecord :=
  (mergedEventLabels eventRecord.eventType).map fun eventLabel =>
    ⟨eventLabel, eventRecord.pushedAt,
      orderedUnion eventRecord.albums partner.albums,
      orderedUnion eventRecord.tracks partner.tracks,
      partner.sourcePaths, partner.destinationPaths⟩

/-- The ids an imported event is paired on. -/
def pairingIds? (eventRecord : ListenerEventDetails) : Option (List Int) :=
  if eventRecord.eventType = .albumImported ∧ eventRecord.albumIds ≠ [] then
    some eventRecord.albumIds
  else if eventRecord.eventType = .trackImported ∧
      eventRecord.trackIds ≠ [] then
    some eventRecord.trackIds
  else none

/-- The ids of a candidate they are compared with. -/
def comparedIds (eventRecord candidate : ListenerEventDetails) : List Int :=
  if eventRecord.eventType = .albumImported then candidate.albumIds
  else candidate.trackIds

/-- The candidate is an import task that shares an id. -/
def SharesId (eventRecord : ListenerEventDetails) (pairingIds : List Int)
    (candidate : ListenerEventDetails) : Prop :=
  candidate.eventType = .importTaskFiles ∧
    ∃ beetsId ∈ pairingIds, beetsId ∈ comparedIds eventRecord candidate

instance (eventRecord : ListenerEventDetails) (pairingIds : List Int)
    (candidate : ListenerEventDetails) :
    Decidable (SharesId eventRecord pairingIds candidate) := by
  unfold SharesId
  infer_instance

/-- The loop over the candidates, from the index of the first of them on. -/
def nearestPartner (eventRecord : ListenerEventDetails)
    (pairingIds : List Int) (partnerIndexes : List Nat) :
    Nat → List ListenerEventDetails → Option Nat
  | _, [] => none
  | candidateIndex, candidate :: rest =>
      if mergePartnerMaxSkew < eventRecord.skew candidate then none
      else if candidateIndex ∉ partnerIndexes ∧
          SharesId eventRecord pairingIds candidate then
        some candidateIndex
      else
        nearestPartner eventRecord pairingIds partnerIndexes
          (candidateIndex + 1) rest

/-- `_import_task_files_partner_index`. -/
def importTaskFilesPartnerIndex (eventRecords : List ListenerEventDetails)
    (recordIndex : Nat) (partnerIndexes : List Nat) : Option Nat :=
  eventRecords[recordIndex]?.bind fun eventRecord =>
    (pairingIds? eventRecord).bind fun pairingIds =>
      nearestPartner eventRecord pairingIds partnerIndexes (recordIndex + 1)
        (eventRecords.drop (recordIndex + 1))

/-- One round of the pass: the rows so far and the partners so far. -/
def mergeStep (eventRecords : List ListenerEventDetails)
    (state : List EventDisplayRecord × List Nat)
    (entry : ListenerEventDetails × Nat) :
    Option (List EventDisplayRecord × List Nat) :=
  if entry.2 ∈ state.2 then some state
  else
    match importTaskFilesPartnerIndex eventRecords entry.2 state.2 with
    | none => some (state.1 ++ [displayRecord entry.1], state.2)
    | some partnerIndex =>
        eventRecords[partnerIndex]?.bind fun partner =>
          (mergedDisplayRecord entry.1 partner).map fun row =>
            (state.1 ++ [row], partnerIndex :: state.2)

/-- `merge_import_event_records`. -/
def mergeImportEventRecords (eventRecords : List ListenerEventDetails) :
    Option (List EventDisplayRecord) :=
  (eventRecords.zipIdx.foldlM (mergeStep eventRecords) ([], [])).map
    Prod.fst

/-- The candidate at `k` is the first that is free and shares an id, and none
up to it is too far away. -/
structure IsNearest (eventRecord : ListenerEventDetails)
    (pairingIds : List Int) (taken : List Nat) (start : Nat)
    (candidates : List ListenerEventDetails) (k : Nat)
    (candidate : ListenerEventDetails) : Prop where
  found : candidates[k]? = some candidate
  free : start + k ∉ taken
  shares : SharesId eventRecord pairingIds candidate
  within : ∀ m between, m ≤ k → candidates[m]? = some between →
    eventRecord.skew between ≤ mergePartnerMaxSkew
  first : ∀ m between, m < k → candidates[m]? = some between →
    start + m ∈ taken ∨ ¬ SharesId eventRecord pairingIds between

section

variable {eventRecord : ListenerEventDetails} {pairingIds : List Int}
  {taken : List Nat}

theorem IsNearest.head {start : Nat} {head : ListenerEventDetails}
    {rest : List ListenerEventDetails}
    (hnear : eventRecord.skew head ≤ mergePartnerMaxSkew)
    (hfree : start ∉ taken)
    (hshares : SharesId eventRecord pairingIds head) :
    IsNearest eventRecord pairingIds taken start (head :: rest) 0 head := by
  refine ⟨rfl, hfree, hshares, ?_, ?_⟩
  · intro m between hm hbetween
    obtain rfl := Nat.le_zero.mp hm
    obtain rfl := Option.some.inj hbetween
    exact hnear
  · intro m between hm _
    exact absurd hm (Nat.not_lt_zero m)

/-- Nothing after a head that is free and shares an id is the nearest. -/
theorem IsNearest.eq_zero {start k : Nat}
    {head candidate : ListenerEventDetails} {rest : List ListenerEventDetails}
    (hfree : start ∉ taken) (hshares : SharesId eventRecord pairingIds head)
    (hnearest : IsNearest eventRecord pairingIds taken start (head :: rest) k
      candidate) : k = 0 := by
  cases k with
  | zero => rfl
  | succ k =>
      rcases hnearest.first 0 head (Nat.zero_lt_succ k) rfl with
        htaken | hnot
      · exact absurd htaken hfree
      · exact absurd hshares hnot

theorem IsNearest.cons {start k : Nat} {head candidate : ListenerEventDetails}
    {rest : List ListenerEventDetails}
    (hnear : eventRecord.skew head ≤ mergePartnerMaxSkew)
    (hother : start ∈ taken ∨ ¬ SharesId eventRecord pairingIds head)
    (hnearest : IsNearest eventRecord pairingIds taken (start + 1) rest k
      candidate) :
    IsNearest eventRecord pairingIds taken start (head :: rest) (k + 1)
      candidate := by
  have hshift : ∀ m, start + (m + 1) = start + 1 + m := by omega
  refine ⟨hnearest.found, ?_, hnearest.shares, ?_, ?_⟩
  · rw [hshift]
    exact hnearest.free
  · intro m between hm hbetween
    cases m with
    | zero =>
        obtain rfl := Option.some.inj hbetween
        exact hnear
    | succ m =>
        exact hnearest.within m between (Nat.le_of_succ_le_succ hm) hbetween
  · intro m between hm hbetween
    cases m with
    | zero =>
        obtain rfl := Option.some.inj hbetween
        exact hother
    | succ m =>
        rw [hshift]
        exact hnearest.first m between (Nat.lt_of_succ_lt_succ hm) hbetween

theorem IsNearest.tail {start k : Nat} {head candidate : ListenerEventDetails}
    {rest : List ListenerEventDetails}
    (hnearest : IsNearest eventRecord pairingIds taken start (head :: rest)
      (k + 1) candidate) :
    IsNearest eventRecord pairingIds taken (start + 1) rest k candidate := by
  have hshift : ∀ m, start + 1 + m = start + (m + 1) := by omega
  refine ⟨hnearest.found, ?_, hnearest.shares, ?_, ?_⟩
  · rw [hshift]
    exact hnearest.free
  · intro m between hm hbetween
    exact hnearest.within (m + 1) between (Nat.succ_le_succ hm) hbetween
  · intro m between hm hbetween
    rw [hshift]
    exact hnearest.first (m + 1) between (Nat.succ_lt_succ hm) hbetween

/-- What the loop over the candidates finds. -/
theorem nearestPartner_eq_some_iff {start other : Nat}
    {candidates : List ListenerEventDetails} :
    nearestPartner eventRecord pairingIds taken start candidates =
        some other ↔
      ∃ k candidate, other = start + k ∧
        IsNearest eventRecord pairingIds taken start candidates k
          candidate := by
  induction candidates generalizing start with
  | nil =>
      constructor
      · intro hsome
        cases hsome
      · rintro ⟨k, candidate, -, hnearest⟩
        cases hnearest.found
  | cons head rest ih =>
      rw [nearestPartner]
      by_cases hfar : mergePartnerMaxSkew < eventRecord.skew head
      · rw [if_pos hfar]
        constructor
        · intro hsome
          cases hsome
        · rintro ⟨k, candidate, -, hnearest⟩
          have hnear := hnearest.within 0 head (Nat.zero_le k) rfl
          exact absurd hfar (Nat.not_lt.mpr hnear)
      · rw [if_neg hfar]
        have hnear := Nat.le_of_not_lt hfar
        by_cases htake : start ∉ taken ∧
            SharesId eventRecord pairingIds head
        · rw [if_pos htake]
          constructor
          · intro hsome
            exact ⟨0, head, (Option.some.inj hsome).symm,
              IsNearest.head hnear htake.1 htake.2⟩
          · rintro ⟨k, candidate, rfl, hnearest⟩
            rw [hnearest.eq_zero htake.1 htake.2]
            rfl
        · rw [if_neg htake, ih]
          have hother : start ∈ taken ∨
              ¬ SharesId eventRecord pairingIds head := by
            by_cases htaken : start ∈ taken
            · exact .inl htaken
            · exact .inr fun hshares => htake ⟨htaken, hshares⟩
          constructor
          · rintro ⟨k, candidate, rfl, hnearest⟩
            exact ⟨k + 1, candidate, by omega,
              hnearest.cons hnear hother⟩
          · rintro ⟨k, candidate, rfl, hnearest⟩
            cases k with
            | zero =>
                obtain rfl := Option.some.inj hnearest.found
                exact absurd ⟨hnearest.free, hnearest.shares⟩ htake
            | succ k => exact ⟨k, candidate, by omega, hnearest.tail⟩

end

/-- The record pairs with the candidate. -/
def PairsWith (eventRecord candidate : ListenerEventDetails) : Prop :=
  ∃ pairingIds, pairingIds? eventRecord = some pairingIds ∧
    SharesId eventRecord pairingIds candidate

theorem pairingIds?_isSome {eventRecord : ListenerEventDetails}
    {ids : List Int} (hids : pairingIds? eventRecord = some ids) :
    eventRecord.eventType = .albumImported ∨
      eventRecord.eventType = .trackImported := by
  unfold pairingIds? at hids
  split at hids
  · exact .inl ‹_ ∧ _›.1
  · split at hids
    · exact .inr ‹_ ∧ _›.1
    · cases hids

section

variable {eventRecords : List ListenerEventDetails}

/-- The partner of a record: the first later record that is free and pairs
with it, as long as none up to it is too far away. -/
structure IsPartner (eventRecords : List ListenerEventDetails)
    (taken : List Nat) (index other : Nat) : Prop where
  later : index < other
  free : other ∉ taken
  pairs : ∃ record candidate, eventRecords[index]? = some record ∧
    eventRecords[other]? = some candidate ∧ PairsWith record candidate
  within : ∀ record between m, eventRecords[index]? = some record →
    index < m → m ≤ other → eventRecords[m]? = some between →
    record.skew between ≤ mergePartnerMaxSkew
  first : ∀ record between m, eventRecords[index]? = some record →
    index < m → m < other → eventRecords[m]? = some between →
    m ∈ taken ∨ ¬ PairsWith record between

theorem importTaskFilesPartnerIndex_eq_some_iff {taken : List Nat}
    {index other : Nat} :
    importTaskFilesPartnerIndex eventRecords index taken = some other ↔
      IsPartner eventRecords taken index other := by
  rw [importTaskFilesPartnerIndex, Option.bind_eq_some_iff]
  constructor
  · rintro ⟨record, hrecord, hbind⟩
    obtain ⟨ids, hids, hnearest⟩ := Option.bind_eq_some_iff.mp hbind
    obtain ⟨k, candidate, rfl, hat⟩ := nearestPartner_eq_some_iff.mp hnearest
    have hget : ∀ m, index < m →
        eventRecords[m]? =
          (eventRecords.drop (index + 1))[m - (index + 1)]? := by
      intro m hm
      rw [List.getElem?_drop, show index + 1 + (m - (index + 1)) = m by omega]
    refine ⟨by omega, hat.free, ⟨record, candidate, hrecord, ?_, ids, hids,
      hat.shares⟩, ?_, ?_⟩
    · rw [← hat.found, List.getElem?_drop]
    · intro same between m hsame hlater hle hbetween
      obtain rfl := Option.some.inj (hrecord.symm.trans hsame)
      rw [hget m hlater] at hbetween
      exact hat.within _ between (by omega) hbetween
    · intro same between m hsame hlater hlt hbetween
      obtain rfl := Option.some.inj (hrecord.symm.trans hsame)
      rw [hget m hlater] at hbetween
      have hfirst := hat.first _ between (by omega) hbetween
      rw [show index + 1 + (m - (index + 1)) = m by omega] at hfirst
      refine hfirst.imp_right fun hnot hpairs => hnot ?_
      obtain ⟨others, hothers, hshares⟩ := hpairs
      obtain rfl := Option.some.inj (hids.symm.trans hothers)
      exact hshares
  · intro hpartner
    obtain ⟨record, candidate, hrecord, hcandidate, ids, hids, hshares⟩ :=
      hpartner.pairs
    have hlater := hpartner.later
    refine ⟨record, hrecord, Option.bind_eq_some_iff.mpr ⟨ids, hids,
      nearestPartner_eq_some_iff.mpr ⟨other - (index + 1), candidate,
        by omega, ?_, ?_, hshares, ?_, ?_⟩⟩⟩
    · rw [List.getElem?_drop,
        show index + 1 + (other - (index + 1)) = other by omega]
      exact hcandidate
    · rw [show index + 1 + (other - (index + 1)) = other by omega]
      exact hpartner.free
    · intro m between hm hbetween
      rw [List.getElem?_drop] at hbetween
      exact hpartner.within record between _ hrecord (by omega) (by omega)
        hbetween
    · intro m between hm hbetween
      rw [List.getElem?_drop] at hbetween
      refine (hpartner.first record between _ hrecord (by omega) (by omega)
        hbetween).imp_right fun hnot hshares => hnot ⟨ids, hids, hshares⟩

/-- The row of a record, alone or with its partner. -/
def displayRow (eventRecords : List ListenerEventDetails)
    (entry : Nat × Option Nat) : Option EventDisplayRecord :=
  match entry.2 with
  | none => eventRecords[entry.1]?.map displayRecord
  | some partnerIndex =>
      eventRecords[entry.1]?.bind fun eventRecord =>
        eventRecords[partnerIndex]?.bind fun partner =>
          mergedDisplayRecord eventRecord partner

/-- A partner is a record, and its taker's type has a label. -/
theorem IsPartner.exists_displayRow {taken : List Nat} {index other : Nat}
    (hpartner : IsPartner eventRecords taken index other) :
    ∃ row, displayRow eventRecords (index, some other) = some row := by
  obtain ⟨record, candidate, hrecord, hcandidate, ids, hids, -⟩ :=
    hpartner.pairs
  have hlabel : ∃ label, mergedEventLabels record.eventType = some label := by
    rcases pairingIds?_isSome hids with htype | htype <;> rw [htype]
    · exact ⟨_, rfl⟩
    · exact ⟨_, rfl⟩
  obtain ⟨label, hlabel⟩ := hlabel
  simp [displayRow, hrecord, hcandidate, mergedDisplayRecord, hlabel]

theorem mergeStep_skipped {rows : List EventDisplayRecord}
    {taken : List Nat} {entry : ListenerEventDetails × Nat}
    (htaken : entry.2 ∈ taken) :
    mergeStep eventRecords (rows, taken) entry = some (rows, taken) := by
  rw [mergeStep, if_pos htaken]

/-- A round that is not skipped adds the row of its record. -/
theorem mergeStep_shown {entry : ListenerEventDetails × Nat}
    {taken : List Nat} (hentry : eventRecords[entry.2]? = some entry.1)
    (hfree : entry.2 ∉ taken) (rows : List EventDisplayRecord) :
    ∃ row,
      displayRow eventRecords (entry.2,
        importTaskFilesPartnerIndex eventRecords entry.2 taken) = some row ∧
      mergeStep eventRecords (rows, taken) entry = some (rows ++ [row],
        (importTaskFilesPartnerIndex eventRecords entry.2 taken).toList ++
          taken) := by
  rw [mergeStep, if_neg hfree]
  cases hpartner : importTaskFilesPartnerIndex eventRecords entry.2 taken with
  | none =>
      refine ⟨displayRecord entry.1, ?_, rfl⟩
      simp only [displayRow, hentry, Option.map_some]
  | some other =>
      obtain ⟨row, hrow⟩ := (importTaskFilesPartnerIndex_eq_some_iff.mp
        hpartner).exists_displayRow
      refine ⟨row, hrow, ?_⟩
      simp only [displayRow, hentry, Option.bind_some] at hrow
      obtain ⟨partner, hget, hmerged⟩ := Option.bind_eq_some_iff.mp hrow
      simp only [hget, Option.bind_some, hmerged, Option.map_some]
      rfl

/-- The rows of the entries of a pass, one for each. -/
def RowsOf (eventRecords : List ListenerEventDetails) :
    List EventDisplayRecord → List (Nat × Option Nat) → Prop :=
  List.Forall₂ fun row entry => displayRow eventRecords entry = some row

theorem foldlM_mergeStep {entries : List (ListenerEventDetails × Nat)}
    (hentries : ∀ entry ∈ entries, eventRecords[entry.2]? = some entry.1)
    (rows : List EventDisplayRecord) (taken : List Nat) :
    ∃ added last,
      RowsOf eventRecords added
        (pass (importTaskFilesPartnerIndex eventRecords) taken
          (entries.map Prod.snd)) ∧
      entries.foldlM (mergeStep eventRecords) (rows, taken) =
        some (rows ++ added, last) := by
  induction entries generalizing rows taken with
  | nil => exact ⟨[], taken, .nil, by rw [List.append_nil]; rfl⟩
  | cons entry rest ih =>
      have hrest := fun other hother =>
        hentries other (List.mem_cons_of_mem entry hother)
      rw [List.foldlM_cons, List.map_cons]
      by_cases htaken : entry.2 ∈ taken
      · rw [mergeStep_skipped htaken, pass_cons_taken htaken]
        exact ih hrest rows taken
      · obtain ⟨row, hrow, hstep⟩ := mergeStep_shown
          (hentries entry List.mem_cons_self) htaken rows
        obtain ⟨added, last, hadded, hlast⟩ := ih hrest (rows ++ [row])
          ((importTaskFilesPartnerIndex eventRecords entry.2 taken).toList ++
            taken)
        refine ⟨row :: added, last, ?_, ?_⟩
        · cases hpartner :
              importTaskFilesPartnerIndex eventRecords entry.2 taken with
          | none =>
              rw [hpartner] at hrow hadded
              rw [pass_cons_alone htaken hpartner]
              exact .cons hrow hadded
          | some other =>
              rw [hpartner] at hrow hadded
              rw [pass_cons_paired htaken hpartner]
              exact .cons hrow hadded
        · rw [hstep]
          refine hlast.trans ?_
          rw [List.append_assoc]
          rfl

/-- The pass over the records, each with its partner. -/
def mergePass (eventRecords : List ListenerEventDetails) :
    List (Nat × Option Nat) :=
  pass (importTaskFilesPartnerIndex eventRecords) []
    (List.range eventRecords.length)

/-- The rows are those of one greedy pass over the records. -/
theorem mergeImportEventRecords_rowsOf
    (eventRecords : List ListenerEventDetails) :
    ∃ rows, mergeImportEventRecords eventRecords = some rows ∧
      RowsOf eventRecords rows (mergePass eventRecords) := by
  have hentries : ∀ entry ∈ eventRecords.zipIdx,
      eventRecords[entry.2]? = some entry.1 := fun entry hmem =>
    List.mem_zipIdx_iff_getElem?.mp hmem
  obtain ⟨added, last, hadded, hlast⟩ := foldlM_mergeStep hentries [] []
  refine ⟨added, ?_, ?_⟩
  · rw [mergeImportEventRecords, hlast]
    rfl
  · rw [List.zipIdx_map_snd, ← List.range_eq_range'] at hadded
    exact hadded

theorem takesLater_importTaskFilesPartnerIndex
    (eventRecords : List ListenerEventDetails) :
    TakesLater (importTaskFilesPartnerIndex eventRecords) := by
  intro index taken other hsome
  have hpartner := importTaskFilesPartnerIndex_eq_some_iff.mp hsome
  exact ⟨hpartner.later, hpartner.free⟩

end

section

variable {eventRecords : List ListenerEventDetails}

theorem isPartner_of_mem_mergePass {index other : Nat}
    (hmem : (index, some other) ∈ mergePass eventRecords) :
    ∃ taken, IsPartner eventRecords taken index other := by
  obtain ⟨-, -, taken, hsome⟩ := of_mem_pass hmem
  exact ⟨taken, importTaskFilesPartnerIndex_eq_some_iff.mp hsome⟩

theorem nodup_partners_mergePass (eventRecords : List ListenerEventDetails) :
    (partners (mergePass eventRecords)).Nodup :=
  (nodup_partners (takesLater_importTaskFilesPartnerIndex _) [] _).1

/-- The records shown are those that are no partner. -/
theorem map_fst_mergePass (eventRecords : List ListenerEventDetails) :
    (mergePass eventRecords).map Prod.fst =
      (List.range eventRecords.length).filter fun index =>
        index ∉ partners (mergePass eventRecords) :=
  map_fst_pass_range (takesLater_importTaskFilesPartnerIndex _) _

theorem mem_mergePass {index : Nat} {record : ListenerEventDetails}
    (hrecord : eventRecords[index]? = some record)
    (hfree : index ∉ partners (mergePass eventRecords)) :
    ∃ other, (index, other) ∈ mergePass eventRecords := by
  have hshown : index ∈ (mergePass eventRecords).map Prod.fst := by
    rw [map_fst_mergePass, List.mem_filter, decide_eq_true_eq]
    exact ⟨List.mem_range.mpr (List.getElem?_eq_some_iff.mp hrecord).1, hfree⟩
  obtain ⟨⟨same, other⟩, hmem, rfl⟩ := List.mem_map.mp hshown
  exact ⟨other, hmem⟩

end

/-- The summary is among the others, by its id or, without one, by its
name. -/
def Occurs (summary : EventSubjectSummary)
    (summaries : List EventSubjectSummary) : Prop :=
  ∃ other ∈ summaries, other.beetsId = summary.beetsId ∧
    (summary.beetsId = none → other.name = summary.name)

/-- The row has every subject and every path the record lists. -/
structure Carries (row : EventDisplayRecord)
    (eventRecord : ListenerEventDetails) : Prop where
  albums : ∀ summary ∈ eventRecord.albums, Occurs summary row.albums
  tracks : ∀ summary ∈ eventRecord.tracks, Occurs summary row.tracks
  sourcePaths : ∀ path ∈ eventRecord.sourcePaths, path ∈ row.sourcePaths
  destinationPaths : ∀ path ∈ eventRecord.destinationPaths,
    path ∈ row.destinationPaths

/-- The row stands for a record, under its time, and for its partner. -/
def StandsFor (eventRecords : List ListenerEventDetails)
    (row : EventDisplayRecord) (entry : Nat × Option Nat) : Prop :=
  (∃ record, eventRecords[entry.1]? = some record ∧
    row.pushedAt = record.pushedAt ∧ Carries row record) ∧
  ∀ other, entry.2 = some other →
    ∃ partner, eventRecords[other]? = some partner ∧ Carries row partner

/-- One row for every record that is no partner, in their order; a partner is
an import task, folded into the row of one imported event. -/
structure Represents (eventRecords : List ListenerEventDetails)
    (rows : List EventDisplayRecord) (entries : List (Nat × Option Nat)) :
    Prop where
  shown : List.Forall₂ (StandsFor eventRecords) rows entries
  order : entries.map Prod.fst =
    (List.range eventRecords.length).filter fun index =>
      index ∉ partners entries
  folded : ∀ index other, (index, some other) ∈ entries →
    ∃ record partner, eventRecords[index]? = some record ∧
      (record.eventType = .albumImported ∨
        record.eventType = .trackImported) ∧
      eventRecords[other]? = some partner ∧
      partner.eventType = .importTaskFiles
  tasks : ∀ index record, eventRecords[index]? = some record →
    record.eventType = .importTaskFiles →
    ((index, none) ∈ entries ∧ index ∉ partners entries) ∨
      ((∀ other, (index, other) ∉ entries) ∧
        ∃! taker, (taker, some index) ∈ entries)

theorem occurs_of_mem {summary : EventSubjectSummary}
    {summaries : List EventSubjectSummary} (hmem : summary ∈ summaries) :
    Occurs summary summaries :=
  ⟨summary, hmem, rfl, fun _ => rfl⟩

theorem occurs_of_subjectKey_eq {summary other : EventSubjectSummary}
    {summaries : List EventSubjectSummary} (hmem : other ∈ summaries)
    (hkey : subjectKey other = subjectKey summary) :
    Occurs summary summaries := by
  refine ⟨other, hmem, ?_⟩
  rcases other with ⟨_ | id, _ | name⟩ <;>
    rcases summary with ⟨_ | id', _ | name'⟩ <;>
      simp_all [subjectKey]

/-- A union loses no subject of either side. -/
theorem occurs_orderedUnion {first second : List EventSubjectSummary}
    {summary : EventSubjectSummary}
    (hmem : summary ∈ first ∨ summary ∈ second) :
    Occurs summary (orderedUnion first second) := by
  rcases hmem with hfirst | hsecond
  · exact occurs_of_mem (List.mem_append_left _ hfirst)
  · by_cases hkey : subjectKey summary ∈ first.map subjectKey
    · obtain ⟨other, hother, hsame⟩ := List.mem_map.mp hkey
      exact occurs_of_subjectKey_eq (List.mem_append_left _ hother) hsame
    · apply occurs_of_mem
      exact List.mem_append_right _
        (List.mem_filter.mpr ⟨hsecond, decide_eq_true hkey⟩)

theorem carries_displayRecord (eventRecord : ListenerEventDetails) :
    Carries (displayRecord eventRecord) eventRecord where
  albums _ hmem := occurs_of_mem hmem
  tracks _ hmem := occurs_of_mem hmem
  sourcePaths _ hmem := hmem
  destinationPaths _ hmem := hmem

/-- Only import tasks carry paths. -/
def OnlyTasksCarryPaths (eventRecords : List ListenerEventDetails) : Prop :=
  ∀ record ∈ eventRecords, record.eventType ≠ .importTaskFiles →
    record.sourcePaths = [] ∧ record.destinationPaths = []

theorem carries_mergedDisplayRecord {record partner : ListenerEventDetails}
    {row : EventDisplayRecord}
    (hrow : mergedDisplayRecord record partner = some row)
    (hpaths : record.sourcePaths = [] ∧ record.destinationPaths = []) :
    row.pushedAt = record.pushedAt ∧ Carries row record ∧
      Carries row partner := by
  obtain ⟨label, -, rfl⟩ := Option.map_eq_some_iff.mp hrow
  refine ⟨rfl, ⟨?_, ?_, ?_, ?_⟩, ⟨?_, ?_, ?_, ?_⟩⟩
  · exact fun _ hmem => occurs_orderedUnion (.inl hmem)
  · exact fun _ hmem => occurs_orderedUnion (.inl hmem)
  · rw [hpaths.1]
    exact fun _ hmem => absurd hmem List.not_mem_nil
  · rw [hpaths.2]
    exact fun _ hmem => absurd hmem List.not_mem_nil
  · exact fun _ hmem => occurs_orderedUnion (.inr hmem)
  · exact fun _ hmem => occurs_orderedUnion (.inr hmem)
  · exact fun _ hmem => hmem
  · exact fun _ hmem => hmem

section

variable {eventRecords : List ListenerEventDetails}

/-- What is taken is an import task, by an imported event. -/
theorem IsPartner.types {taken : List Nat} {index other : Nat}
    (hpartner : IsPartner eventRecords taken index other) :
    ∃ record partner, eventRecords[index]? = some record ∧
      (record.eventType = .albumImported ∨
        record.eventType = .trackImported) ∧
      eventRecords[other]? = some partner ∧
      partner.eventType = .importTaskFiles := by
  obtain ⟨record, partner, hrecord, hcandidate, ids, hids, hshares⟩ :=
    hpartner.pairs
  exact ⟨record, partner, hrecord, pairingIds?_isSome hids, hcandidate,
    hshares.1⟩

theorem standsFor_of_displayRow (hpaths : OnlyTasksCarryPaths eventRecords)
    {entry : Nat × Option Nat} {row : EventDisplayRecord}
    (hpartner : ∀ other, entry.2 = some other →
      ∃ taken, IsPartner eventRecords taken entry.1 other)
    (hrow : displayRow eventRecords entry = some row) :
    StandsFor eventRecords row entry := by
  obtain ⟨index, partner⟩ := entry
  cases partner with
  | none =>
      obtain ⟨record, hrecord, rfl⟩ := Option.map_eq_some_iff.mp hrow
      refine ⟨⟨record, hrecord, rfl, carries_displayRecord record⟩, ?_⟩
      intro other hother
      cases hother
  | some other =>
      obtain ⟨taken, hother⟩ := hpartner other rfl
      obtain ⟨record, candidate, hrecord, htype, hcandidate, -⟩ :=
        hother.types
      simp only [displayRow, hrecord, hcandidate, Option.bind_some] at hrow
      have hnone := hpaths record (List.mem_of_getElem? hrecord) (by
        rcases htype with htype | htype <;> simp [htype])
      obtain ⟨htime, hown, htheirs⟩ :=
        carries_mergedDisplayRecord hrow hnone
      refine ⟨⟨record, hrecord, htime, hown⟩, ?_⟩
      intro same hsame
      obtain rfl := Option.some.inj hsame
      exact ⟨candidate, hcandidate, htheirs⟩

theorem RowsOf.standsFor (hpaths : OnlyTasksCarryPaths eventRecords)
    {rows : List EventDisplayRecord} {entries : List (Nat × Option Nat)}
    (hrows : RowsOf eventRecords rows entries)
    (hpartner : ∀ index other, (index, some other) ∈ entries →
      ∃ taken, IsPartner eventRecords taken index other) :
    List.Forall₂ (StandsFor eventRecords) rows entries := by
  induction hrows with
  | nil => exact .nil
  | @cons row entry rows entries hrow _ ih =>
      refine .cons (standsFor_of_displayRow hpaths ?_ hrow) (ih ?_)
      · intro other hother
        apply hpartner entry.1 other
        rw [← hother]
        exact List.mem_cons_self
      · intro index other hmem
        exact hpartner index other (List.mem_cons_of_mem _ hmem)

/-- Every record is represented: none is lost, and no import task is shown
twice. -/
theorem mergeImportEventRecords_represents
    (eventRecords : List ListenerEventDetails)
    (hpaths : OnlyTasksCarryPaths eventRecords) :
    ∃ rows entries, mergeImportEventRecords eventRecords = some rows ∧
      Represents eventRecords rows entries := by
  obtain ⟨rows, hrows, hrowsOf⟩ := mergeImportEventRecords_rowsOf eventRecords
  have horder := map_fst_mergePass eventRecords
  refine ⟨rows, mergePass eventRecords, hrows,
    hrowsOf.standsFor hpaths fun _ _ => isPartner_of_mem_mergePass, horder,
    ?_, ?_⟩
  · intro index other hmem
    obtain ⟨taken, hother⟩ := isPartner_of_mem_mergePass hmem
    exact hother.types
  · intro index record hrecord htype
    have halone : ∀ other,
        (index, some other) ∉ mergePass eventRecords := by
      intro other hmem
      obtain ⟨taken, hother⟩ := isPartner_of_mem_mergePass hmem
      obtain ⟨same, -, hsame, himported, -⟩ := hother.types
      obtain rfl := Option.some.inj (hrecord.symm.trans hsame)
      rcases himported with himported | himported <;>
        rw [himported] at htype <;> cases htype
    by_cases htaken : index ∈ partners (mergePass eventRecords)
    · right
      constructor
      · intro other hmem
        have hshown := List.mem_map_of_mem (f := Prod.fst) hmem
        rw [horder, List.mem_filter, decide_eq_true_eq] at hshown
        exact hshown.2 htaken
      · obtain ⟨taker, htaker⟩ := mem_partners_iff.mp htaken
        exact ⟨taker, htaker, fun other hother =>
          taker_unique (nodup_partners_mergePass eventRecords) hother htaker⟩
    · left
      refine ⟨?_, htaken⟩
      obtain ⟨other, hmem⟩ := mem_mergePass hrecord htaken
      cases other with
      | none => exact hmem
      | some other => exact absurd hmem (halone other)

/-- The two pushes of one import. -/
theorem mergeImportEventRecords_represents_pair :
    let eventRecords : List ListenerEventDetails :=
      [⟨.albumImported, 90, [⟨some 3, some "Album"⟩], [], [], []⟩,
        ⟨.importTaskFiles, 60, [⟨some 3, some "Album"⟩],
          [⟨some 7, none⟩], ["/in"], ["/out"]⟩]
    OnlyTasksCarryPaths eventRecords ∧
      ∃ rows entries, mergeImportEventRecords eventRecords = some rows ∧
        Represents eventRecords rows entries := by
  have hpaths : OnlyTasksCarryPaths
      [⟨.albumImported, 90, [⟨some 3, some "Album"⟩], [], [], []⟩,
        ⟨.importTaskFiles, 60, [⟨some 3, some "Album"⟩],
          [⟨some 7, none⟩], ["/in"], ["/out"]⟩] := by
    unfold OnlyTasksCarryPaths
    decide
  exact ⟨hpaths, mergeImportEventRecords_represents _ hpaths⟩

end

end Beetkeeper
