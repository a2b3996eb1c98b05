/-
Reading the event listing page by page while pushes arrive.  A push stands
where its own time puts it, so the listing grows anywhere, not only at its
front.
-/
import Beetkeeper.EventListing
import Beetkeeper.JobListing

namespace Beetkeeper

open GroupedRows Paging

/-- `events`: one page of the listing. -/
def EventsDb.events (db : EventsDb) (params : PageQueryParams) :
    List ListenerEventDetails :=
  db.listenerEventRecordsLookup (offset params.pageSize params.page)
    params.pageSize

/-- The events of a ledger, newest first. -/
def EventsDb.newestFirst (db : EventsDb) : List ListenerEvent :=
  db.listenerEvents.insertionSort ListenerEvent.ListedBefore

section Growing

variable {before after : List EventPush} {i : Nat} {push : EventPush}

theorem newestFirst_grows (hgrow : before <+: after) :
    (ledgerOf before).newestFirst.Sublist (ledgerOf after).newestFirst := by
  obtain ⟨rest, rfl⟩ := hgrow
  have hevents : (ledgerOf before).listenerEvents.Sublist
      (ledgerOf (before ++ rest)).listenerEvents := by
    rw [(records_ledgerOf before).listenerEvents,
      (records_ledgerOf (before ++ rest)).listenerEvents, blocks_append]
    exact List.sublist_append_left _ _
  exact insertionSort_sublist hevents

/-- A later push adds nothing to the record of an earlier one. -/
theorem listedRecord_of_prefix (hgrow : before <+: after)
    (hpush : before[i]? = some push) :
    (ledgerOf after).listedRecord (push.event (1 + i)) =
      (ledgerOf before).listedRecord (push.event (1 + i)) := by
  have hlater : after[i]? = some push := by
    obtain ⟨hi, rfl⟩ := List.getElem?_eq_some_iff.mp hpush
    exact List.prefix_iff_getElem?.mp hgrow i hi
  simp only [EventsDb.listedRecord, EventPush.event,
    albumRowsOf_event hpush, albumRowsOf_event hlater,
    trackRowsOf_event hpush, trackRowsOf_event hlater,
    sourcePathRowsOf_event hpush, sourcePathRowsOf_event hlater,
    destinationPathRowsOf_event hpush, destinationPathRowsOf_event hlater]

end Growing

/-- Each page shows the records of its part of the listing. -/
theorem events_eq (pushes : List EventPush) (params : PageQueryParams) :
    (ledgerOf pushes).events params =
      (page params.pageSize params.page (ledgerOf pushes).newestFirst).map
        (ledgerOf pushes).listedRecord :=
  listenerEventRecordsLookup_eq (nodup_eventIds pushes) _ _

/-- Read the listing page by page until a page is not full, while pushes go on
arriving with whatever times: every event recorded at the beginning is on one
of the pages, in the place of its row, with all that was recorded of it. -/
theorem reading_on_misses_no_event (arrived : Nat → List EventPush)
    (count : Nat) (params : Nat → PageQueryParams) (size : Nat)
    (harrived : ∀ k < count, arrived k <+: arrived (k + 1))
    (hparams : ∀ k ≤ count,
      (params k).page = k + 1 ∧ (params k).pageSize = size)
    (hshort : ((ledgerOf (arrived count)).events (params count)).length <
      size)
    (i : Nat) (push : EventPush) (hpush : (arrived 0)[i]? = some push) :
    ∃ k ≤ count, ∃ j : Nat,
      (page size (k + 1) (ledgerOf (arrived k)).newestFirst)[j]? =
          some (push.event (1 + i)) ∧
        ((ledgerOf (arrived k)).events (params k))[j]? =
          some ((ledgerOf (arrived 0)).listedRecord (push.event (1 + i))) := by
  have hpage : ∀ k ≤ count, (ledgerOf (arrived k)).events (params k) =
      (page size (k + 1) (ledgerOf (arrived k)).newestFirst).map
        (ledgerOf (arrived k)).listedRecord := by
    intro k hk
    obtain ⟨hnumber, hsize⟩ := hparams k hk
    rw [events_eq, hnumber, hsize]
  have hhere : push.event (1 + i) ∈ (ledgerOf (arrived 0)).newestFirst := by
    rw [EventsDb.newestFirst, List.mem_insertionSort,
      mem_listenerEvents_iff]
    exact ⟨i, push, hpush, rfl⟩
  have hlast : (page size (count + 1)
      (ledgerOf (arrived count)).newestFirst).length < size := by
    rw [hpage count (Nat.le_refl count), List.length_map] at hshort
    exact hshort
  have hgrow : ∀ k, k + 1 < count + 1 →
      (ledgerOf (arrived k)).newestFirst.Sublist
        (ledgerOf (arrived (k + 1))).newestFirst :=
    fun k hk => newestFirst_grows (harrived k (by omega))
  obtain ⟨k, hk, hseen⟩ := seen_of_growing hgrow hlast hhere
  obtain ⟨j, hj⟩ := List.getElem?_of_mem hseen
  refine ⟨k, by omega, j, hj, ?_⟩
  have hstart : ∀ n ≤ count, arrived 0 <+: arrived n := by
    intro n hn
    induction n with
    | zero => exact List.prefix_refl _
    | succ n ih => exact (ih (by omega)).trans (harrived n (by omega))
  rw [hpage k (by omega), List.getElem?_map, hj, Option.map_some,
    listedRecord_of_prefix (hstart k (by omega)) hpush]

/-- Pushes of times 10, 30 and 40; one of time 20 arrives after the first page
was read. -/
def latePush (k : Nat) : List EventPush :=
  [.album ⟨.albumImported, ⟨10, 0⟩, ⟨1, "Geogaddi"⟩⟩,
    .album ⟨.albumImported, ⟨30, 0⟩, ⟨2, "Tomorrow's Harvest"⟩⟩,
    .album ⟨.albumRemoved, ⟨40, 0⟩, ⟨2, "Tomorrow's Harvest"⟩⟩] ++
  if k = 0 then [] else
    [.album ⟨.albumImported, ⟨20, 0⟩, ⟨3, "The Campfire Headphase"⟩⟩]

/-- The late push takes the place the first event had on the second page. -/
theorem reading_on_misses_no_event_late :
    ∃ k ≤ 2, ∃ j : Nat,
      (page 2 (k + 1) (ledgerOf (latePush k)).newestFirst)[j]? =
          some ⟨1, .albumImported, 10⟩ ∧
        ((ledgerOf (latePush k)).events (StoreProcesses.pageOfTwo k))[j]? =
          some ⟨.albumImported, 10, [⟨some 1, some "Geogaddi"⟩], [], [],
            []⟩ := by
  refine reading_on_misses_no_event latePush 2 StoreProcesses.pageOfTwo 2 ?_
    (fun _ _ => ⟨rfl, rfl⟩) (by decide) 0 _ rfl
  intro k _
  cases k with
  | zero => exact ⟨_, rfl⟩
  | succ k => exact List.prefix_refl _

end Beetkeeper
