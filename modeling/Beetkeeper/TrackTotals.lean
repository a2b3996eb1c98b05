/-
The track total an album's tags claim, as this program computes it from the
album's items and as beets computes it for the album.
-/
import Mathlib.Algebra.GroupWithZero.Nat
import Beetkeeper.GroupedRows
import Beetkeeper.CleanSlateContract

namespace Beetkeeper

open GroupedRows LexicalPath

/-- `AlbumFileHealth`. -/
structure AlbumFileHealth where
  itemCount : Nat
  filesPresent : Nat
  expectedTracks : Option Nat
deriving Repr, DecidableEq

namespace AlbumFileHealth

/-- `files_missing`. -/
def filesMissing (health : AlbumFileHealth) : Nat :=
  health.itemCount - health.filesPresent

/-- `short_of_release`. -/
def shortOfRelease (health : AlbumFileHealth) : Nat :=
  match health.expectedTracks with
  | none => 0
  | some expected => expected - health.itemCount

/-- `incomplete`. -/
def incomplete (health : AlbumFileHealth) : Bool :=
  decide (0 < health.filesMissing) || decide (0 < health.shortOfRelease)

end AlbumFileHealth

/-- `file_health`. -/
def fileHealth (beets : Beets) (tree : FileTree String) (items : List Item) :
    AlbumFileHealth where
  itemCount := items.length
  filesPresent := (items.filter (fileExists tree)).length
  expectedTracks := expectedTracks beets items

/-- No more than a number of rows, and all of them when the number is 0. -/
def upTo (bound : Nat) (items : List Item) : List Item :=
  if bound = 0 then items else items.take bound

/-- beets' `Album.albumtotal`: the first item's total for an album of one
disc or without numbering per disc, else the totals of the first items of the
discs, counted up to the number of discs where that is known. -/
def albumTotal (beets : Beets) : List Item → Nat
  | [] => 0
  | first :: rest =>
      if first.disctotal = 1 ∨ beets.perDiscNumbering = false then
        first.tracktotal
      else
        ((upTo first.disctotal (leaders Item.disc (first :: rest))).map
          Item.tracktotal).sum

/-- The total, the marker of the search page and the preview of an album are
those of beets' total. -/
structure AgreesWithBeets (beets : Beets) (items : List Item) : Prop where
  expected : expectedTracks beets items = orNone (albumTotal beets items)
  health : ∀ tree, (fileHealth beets tree items).expectedTracks =
      orNone (albumTotal beets items) ∧
    (fileHealth beets tree items).shortOfRelease =
      albumTotal beets items - items.length ∧
    ((fileHealth beets tree items).incomplete = true ↔
      0 < (fileHealth beets tree items).filesMissing ∨
        items.length < albumTotal beets items)
  preview : ∀ world target entry sourcePath downloadsPath allowFewerFiles
      preserveFields, target.subject = .album → entry.items = items →
    let plan := previewEntry beets world target entry sourcePath
      downloadsPath allowFewerFiles preserveFields
    plan.expectedTracks = orNone (albumTotal beets items) ∧
      plan.warnings = previewWarnings target entry
        (scanSource beets world target
          (normalizedSource world.tree sourcePath) downloadsPath)
        (items.filter (fileExists world.tree)).length
        (items.filter fun item => !fileExists world.tree item).length
        (orNone (albumTotal beets items))

theorem orNone_inj {m n : Nat} (hsame : orNone m = orNone n) : m = n := by
  unfold orNone at hsame
  split at hsame <;> split at hsame <;> simp_all

theorem getD_orNone (n count : Nat) :
    (match orNone n with
      | none => 0
      | some expected => expected - count) = n - count := by
  unfold orNone
  by_cases hzero : n = 0
  · simp [hzero]
  · simp [hzero]

section

variable {beets : Beets} {first : Item} {rest : List Item}

/-- The loop adds what the first item of each new disc claims, until enough
discs were seen. -/
theorem discTotals_eq {disctotal : Nat} {seen : List Nat} (total : Nat)
    (items : List Item) (hfew : seen.length < disctotal) :
    discTotals disctotal seen total items =
      total + (((newLeaders Item.disc seen items).take
        (disctotal - seen.length)).map Item.tracktotal).sum := by
  induction items generalizing seen total with
  | nil => rw [discTotals, newLeaders_nil_right, List.take_nil]; rfl
  | cons item rest ih =>
      rw [discTotals]
      by_cases hseen : item.disc ∈ seen
      · rw [if_pos hseen, newLeaders_cons_of_mem hseen]
        exact ih total hfew
      · rw [if_neg hseen, newLeaders_cons_of_not_mem hseen]
        by_cases hlast : seen.length + 1 = disctotal
        · rw [if_pos hlast, show disctotal - seen.length = 1 by omega]
          simp
        · have hmore : (item.disc :: seen).length < disctotal := by
            rw [List.length_cons]
            omega
          rw [if_neg hlast, ih _ hmore, List.length_cons,
            show disctotal - seen.length =
              disctotal - (seen.length + 1) + 1 by omega,
            List.take_succ_cons, List.map_cons, List.sum_cons, Nat.add_assoc]

/-- With the number of discs known to be two or more the loop computes beets'
total. -/
theorem expectedTracks_of_many (hmany : 2 ≤ first.disctotal)
    (hper : beets.perDiscNumbering = true) :
    expectedTracks beets (first :: rest) =
      orNone (albumTotal beets (first :: rest)) := by
  have hloop : expectedTracks beets (first :: rest) =
      orNone (discTotals first.disctotal [] 0 (first :: rest)) := by
    rw [expectedTracks, if_neg]
    simp only [hper, Bool.not_true, Bool.or_false, decide_eq_true_eq]
    omega
  have htotal : albumTotal beets (first :: rest) =
      (((leaders Item.disc (first :: rest)).take first.disctotal).map
        Item.tracktotal).sum := by
    rw [albumTotal, if_neg, upTo, if_neg (by omega)]
    rintro (hone | hoff)
    · omega
    · rw [hper] at hoff
      cases hoff
  rw [hloop, htotal, discTotals_eq 0 _ (by rw [List.length_nil]; omega),
    newLeaders_nil, List.length_nil, Nat.sub_zero, Nat.zero_add]

/-- With the number of discs unknown beets adds the other discs to the first
item's total. -/
theorem albumTotal_of_unknown (hunknown : first.disctotal = 0)
    (hper : beets.perDiscNumbering = true) :
    albumTotal beets (first :: rest) = first.tracktotal +
      ((leaders Item.disc (first :: rest)).tail.map Item.tracktotal).sum := by
  rw [albumTotal, if_neg (by simp [hunknown, hper]), upTo, if_pos hunknown,
    leaders, List.map_cons, List.sum_cons, List.tail_cons]

/-- Then the totals agree when the other discs have nothing to add. -/
theorem expectedTracks_eq_iff_of_unknown (hunknown : first.disctotal = 0)
    (hper : beets.perDiscNumbering = true) :
    expectedTracks beets (first :: rest) =
        orNone (albumTotal beets (first :: rest)) ↔
      ∀ item ∈ (leaders Item.disc (first :: rest)).tail,
        item.tracktotal = 0 := by
  have hzero : (∀ item ∈ (leaders Item.disc (first :: rest)).tail,
      item.tracktotal = 0) ↔
      ((leaders Item.disc (first :: rest)).tail.map Item.tracktotal).sum =
        0 := by
    rw [List.sum_eq_zero_iff_forall_eq_nat, List.forall_mem_map]
  rw [hzero, albumTotal_of_unknown hunknown hper, expectedTracks,
    if_pos (by simp [hunknown])]
  constructor
  · intro hsame
    have hsum := orNone_inj hsame
    omega
  · intro hsum
    rw [hsum, Nat.add_zero]

theorem expectedTracks_eq_iff :
    expectedTracks beets (first :: rest) =
        orNone (albumTotal beets (first :: rest)) ↔
      beets.perDiscNumbering = false ∨ first.disctotal ≠ 0 ∨
        ∀ item ∈ (leaders Item.disc (first :: rest)).tail,
          item.tracktotal = 0 := by
  cases hper : beets.perDiscNumbering with
  | false => simp [expectedTracks, albumTotal, hper]
  | true =>
      by_cases hunknown : first.disctotal = 0
      · rw [expectedTracks_eq_iff_of_unknown hunknown hper]
        simp [hunknown]
      · refine iff_of_true ?_ (Or.inr (Or.inl hunknown))
        by_cases hone : first.disctotal = 1
        · simp [expectedTracks, albumTotal, hone]
        · exact expectedTracks_of_many (by omega) hper

end

/-- The marker and the preview only pass the total on. -/
theorem agreesWithBeets_iff {beets : Beets} {items : List Item} :
    AgreesWithBeets beets items ↔
      expectedTracks beets items = orNone (albumTotal beets items) := by
  constructor
  · exact AgreesWithBeets.expected
  · intro hexpected
    refine ⟨hexpected, fun tree => ?_, ?_⟩
    · have hshort : (fileHealth beets tree items).shortOfRelease =
          albumTotal beets items - items.length := by
        rw [AlbumFileHealth.shortOfRelease, fileHealth, hexpected]
        exact getD_orNone _ _
      refine ⟨hexpected, hshort, ?_⟩
      rw [AlbumFileHealth.incomplete, hshort, Bool.or_eq_true,
        decide_eq_true_eq, decide_eq_true_eq, Nat.sub_pos_iff_lt]
    · rintro world target entry sourcePath downloadsPath allowFewerFiles
        preserveFields hsubject rfl
      simp only [previewEntry, hsubject, if_true, hexpected]
      exact ⟨trivial, trivial⟩

/-- The totals agree exactly when discs are not numbered each for itself, or
the number of discs is known, or every disc but the first item's claims no
track. -/
theorem agreesWithBeets_iff_knownDiscs (beets : Beets) (first : Item)
    (rest : List Item) :
    AgreesWithBeets beets (first :: rest) ↔
      beets.perDiscNumbering = false ∨ first.disctotal ≠ 0 ∨
        ∀ item ∈ (leaders Item.disc (first :: rest)).tail,
          item.tracktotal = 0 := by
  rw [agreesWithBeets_iff]
  exact expectedTracks_eq_iff

/-- Two discs of ten and twelve tracks whose number is not in the tags. -/
theorem unknown_discs_disagree :
    let beets : Beets := { plainBeets with perDiscNumbering := true }
    let item : Item := { trackRow (spell ["music", "Album", "01.mp3"]) with
      disctotal := 0 }
    let items : List Item := [{ item with disc := 1, tracktotal := 10 },
      { item with id := 2, disc := 2, tracktotal := 12 }]
    expectedTracks beets items = some 10 ∧ albumTotal beets items = 22 ∧
      ¬ AgreesWithBeets beets items := by
  intro beets item items
  refine ⟨by decide, by decide, fun hagrees => ?_⟩
  have hexpected := hagrees.expected
  revert hexpected
  decide

end Beetkeeper
