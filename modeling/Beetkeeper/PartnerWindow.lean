/-
The search for an import's other push against what it is meant to find: over
records listed newest first, stopping at the first one outside the window
misses nothing.
-/
import Mathlib.Order.Bounds.Basic
import Beetkeeper.EventMerge

namespace Beetkeeper

/-- The records are ordered newest first. -/
def NewestFirst (eventRecords : List ListenerEventDetails) : Prop :=
  eventRecords.Pairwise fun newer older => older.pushedAt ≤ newer.pushedAt

/-- The candidate is an import task that shares an album id with an imported
album, or a track id with an imported track. -/
def SharesSubject (eventRecord candidate : ListenerEventDetails) : Prop :=
  candidate.eventType = .importTaskFiles ∧
    (eventRecord.eventType = .albumImported ∧
        (∃ id ∈ eventRecord.albumIds, id ∈ candidate.albumIds) ∨
      eventRecord.eventType = .trackImported ∧
        ∃ id ∈ eventRecord.trackIds, id ∈ candidate.trackIds)

/-- The index is a later one that is not consumed, of a record that shares a
subject and was pushed at most a minute apart. -/
def IsFreeMatch (eventRecords : List ListenerEventDetails)
    (taken : List Nat) (index other : Nat) : Prop :=
  index < other ∧ other ∉ taken ∧
    ∃ eventRecord candidate, eventRecords[index]? = some eventRecord ∧
      eventRecords[other]? = some candidate ∧
      SharesSubject eventRecord candidate ∧
      eventRecord.skew candidate ≤ mergePartnerMaxSkew

theorem pairsWith_iff {eventRecord candidate : ListenerEventDetails} :
    PairsWith eventRecord candidate ↔ SharesSubject eventRecord candidate := by
  unfold PairsWith SharesSubject pairingIds? SharesId comparedIds
  cases heventType : eventRecord.eventType with
  | albumImported =>
      by_cases hids : eventRecord.albumIds = []
      · simp [hids]
      · simp [hids]
  | trackImported =>
      by_cases hids : eventRecord.trackIds = []
      · simp [hids]
      · simp [hids]
  | _ => simp

section

variable {eventRecords : List ListenerEventDetails} {taken : List Nat}
  {index other : Nat}

/-- A record between two others is no farther from the first than the second
is. -/
theorem skew_le_of_between (hsorted : NewestFirst eventRecords)
    {eventRecord between candidate : ListenerEventDetails} {m : Nat}
    (hrecord : eventRecords[index]? = some eventRecord)
    (hbetween : eventRecords[m]? = some between)
    (hcandidate : eventRecords[other]? = some candidate)
    (hlater : index < m) (hle : m ≤ other) :
    eventRecord.skew between ≤ eventRecord.skew candidate := by
  have hordered : ∀ {i j : Nat} {newer older : ListenerEventDetails},
      eventRecords[i]? = some newer → eventRecords[j]? = some older →
      i < j → older.pushedAt ≤ newer.pushedAt := by
    intro i j newer older hnewer holder hlt
    obtain ⟨hi, rfl⟩ := List.getElem?_eq_some_iff.mp hnewer
    obtain ⟨hj, rfl⟩ := List.getElem?_eq_some_iff.mp holder
    exact List.pairwise_iff_getElem.mp hsorted i j hi hj hlt
  have hfirst := hordered hrecord hbetween hlater
  unfold ListenerEventDetails.skew
  rcases Nat.lt_or_eq_of_le hle with hlt | rfl
  · have hsecond := hordered hbetween hcandidate hlt
    omega
  · obtain rfl := Option.some.inj (hbetween.symm.trans hcandidate)
    exact le_refl _

theorem IsPartner.isFreeMatch
    (hpartner : IsPartner eventRecords taken index other) :
    IsFreeMatch eventRecords taken index other := by
  obtain ⟨eventRecord, candidate, hrecord, hcandidate, hpairs⟩ :=
    hpartner.pairs
  refine ⟨hpartner.later, hpartner.free, eventRecord, candidate, hrecord,
    hcandidate, pairsWith_iff.mp hpairs, ?_⟩
  exact hpartner.within eventRecord candidate other hrecord hpartner.later
    (le_refl other) hcandidate

/-- No match comes before the partner the loop finds. -/
theorem IsPartner.le_of_isFreeMatch {m : Nat}
    (hpartner : IsPartner eventRecords taken index other)
    (hmatch : IsFreeMatch eventRecords taken index m) : other ≤ m := by
  obtain ⟨hlater, hfree, eventRecord, between, hrecord, hbetween, hshares,
    _⟩ := hmatch
  by_contra hbefore
  rcases hpartner.first eventRecord between m hrecord hlater
    (Nat.lt_of_not_le hbefore) hbetween with htaken | hnot
  · exact hfree htaken
  · exact hnot (pairsWith_iff.mpr hshares)

/-- The first match is the partner: nothing up to it is outside the window. -/
theorem isPartner_of_isLeast (hsorted : NewestFirst eventRecords)
    (hleast : IsLeast {m | IsFreeMatch eventRecords taken index m} other) :
    IsPartner eventRecords taken index other := by
  obtain ⟨hlater, hfree, eventRecord, candidate, hrecord, hcandidate,
    hshares, hwithin⟩ := hleast.1
  refine ⟨hlater, hfree, ⟨eventRecord, candidate, hrecord, hcandidate,
    pairsWith_iff.mpr hshares⟩, ?_, ?_⟩
  · intro same between m hsame hm hle hbetween
    obtain rfl := Option.some.inj (hrecord.symm.trans hsame)
    exact (skew_le_of_between hsorted hrecord hbetween hcandidate hm
      hle).trans hwithin
  · intro same between m hsame hm hlt hbetween
    obtain rfl := Option.some.inj (hrecord.symm.trans hsame)
    by_contra hneither
    rw [not_or, not_not] at hneither
    have hmatch : IsFreeMatch eventRecords taken index m :=
      ⟨hm, hneither.1, eventRecord, between, hrecord, hbetween,
        pairsWith_iff.mp hneither.2,
        (skew_le_of_between hsorted hrecord hbetween hcandidate hm
          hlt.le).trans hwithin⟩
    exact absurd (hleast.2 hmatch) (Nat.not_le.mpr hlt)

end

/-- Over records listed newest first the search returns the least match, and
nothing exactly when there is none. -/
theorem importTaskFilesPartnerIndex_isLeast
    (eventRecords : List ListenerEventDetails)
    (hsorted : NewestFirst eventRecords) (index : Nat) (taken : List Nat) :
    (∀ other, importTaskFilesPartnerIndex eventRecords index taken =
        some other ↔
      IsLeast {m | IsFreeMatch eventRecords taken index m} other) ∧
    (importTaskFilesPartnerIndex eventRecords index taken = none ↔
      ∀ other, ¬ IsFreeMatch eventRecords taken index other) := by
  have hfound : ∀ other, importTaskFilesPartnerIndex eventRecords index
      taken = some other ↔
      IsLeast {m | IsFreeMatch eventRecords taken index m} other := by
    intro other
    rw [importTaskFilesPartnerIndex_eq_some_iff]
    constructor
    · intro hpartner
      exact ⟨hpartner.isFreeMatch, fun m hmatch =>
        hpartner.le_of_isFreeMatch hmatch⟩
    · exact isPartner_of_isLeast hsorted
  refine ⟨hfound, ?_⟩
  rw [Option.eq_none_iff_forall_ne_some]
  constructor
  · intro hnone other hmatch
    classical
    have hexists : ∃ m, IsFreeMatch eventRecords taken index m :=
      ⟨other, hmatch⟩
    exact hnone (Nat.find hexists) ((hfound _).mpr
      ⟨Nat.find_spec hexists, fun m hm => Nat.find_min' hexists hm⟩)
  · intro hnone other hsome
    exact hnone other ((hfound other).mp hsome).1

/-- The two pushes of one import, a minute apart to the microsecond. -/
theorem importTaskFilesPartnerIndex_isLeast_pair :
    let eventRecords : List ListenerEventDetails :=
      [⟨.albumImported, 60000000, [⟨some 3, some "Album"⟩], [], [], []⟩,
        ⟨.importTaskFiles, 0, [⟨some 3, some "Album"⟩],
          [⟨some 7, none⟩], ["/in"], ["/out"]⟩]
    NewestFirst eventRecords ∧
      IsLeast {m | IsFreeMatch eventRecords [] 0 m} 1 := by
  have hsorted : NewestFirst
      [⟨.albumImported, 60000000, [⟨some 3, some "Album"⟩], [], [], []⟩,
        ⟨.importTaskFiles, 0, [⟨some 3, some "Album"⟩],
          [⟨some 7, none⟩], ["/in"], ["/out"]⟩] := by
    unfold NewestFirst
    decide
  obtain ⟨hfound, _⟩ :=
    importTaskFilesPartnerIndex_isLeast _ hsorted 0 []
  exact ⟨hsorted, (hfound 1).mp (by decide)⟩

end Beetkeeper
