/-
Pages of a list, counted from one.  A reader who asks for one page after the
other sees a list that stands still exactly once; a list that grows while it is
read, at its front or anywhere else, shows some things twice, but hides none.
-/
import Mathlib.Data.List.Sort

universe u

namespace Paging

variable {A : Type u}

/-- The items a page skips. -/
def offset (size number : Nat) : Nat := (number - 1) * size

def page (size number : Nat) (items : List A) : List A :=
  (items.drop (offset size number)).take size

theorem offset_succ (size count : Nat) :
    offset size (count + 1) = count * size := by
  rw [offset, Nat.add_sub_cancel]

/-- A page and what is behind it are what is not before it. -/
theorem page_append_drop (size k : Nat) (items : List A) :
    page size (k + 1) items ++ items.drop ((k + 1) * size) =
      items.drop (k * size) := by
  rw [page, offset_succ, Nat.succ_mul, ← List.drop_drop,
    List.take_append_drop]

theorem page_of_last {size k : Nat} {items : List A}
    (hend : items.length ≤ (k + 1) * size) :
    page size (k + 1) items = items.drop (k * size) := by
  rw [← page_append_drop, List.drop_of_length_le hend, List.append_nil]

/-- There is something behind a page unless it reaches the end. -/
theorem length_page_lt_iff (size k : Nat) (items : List A) :
    offset size (k + 1) + (page size (k + 1) items).length < items.length ↔
      (k + 1) * size < items.length := by
  rw [page, offset_succ, List.length_take, List.length_drop, Nat.succ_mul]
  omega

theorem map_page {B : Type u} (f : A → B) (size number : Nat)
    (items : List A) :
    (page size number items).map f = page size number (items.map f) := by
  rw [page, page, List.map_take, List.map_drop]

theorem mem_page {size k i : Nat} {items : List A} {a : A}
    (hitem : items[i]? = some a) (hlow : k * size ≤ i)
    (hhigh : i < (k + 1) * size) : a ∈ page size (k + 1) items := by
  rw [page, offset_succ]
  refine List.mem_of_getElem? (i := i - k * size) ?_
  rw [Nat.succ_mul] at hhigh
  rw [List.getElem?_take, if_pos (by omega), List.getElem?_drop]
  rw [Nat.add_sub_cancel' hlow]
  exact hitem

/-- A page that is not full is the last one. -/
theorem length_le_of_short {size count : Nat} {items : List A}
    (hshort : (page size (count + 1) items).length < size) :
    items.length ≤ (count + 1) * size := by
  rw [page, offset_succ, List.length_take, List.length_drop] at hshort
  rw [Nat.succ_mul]
  omega

section Growing

variable {lists : Nat → List A} {count size : Nat}

/-- What is put into a list moves items back, and none forward. -/
theorem exists_index {before after : List A} (hgrow : before.Sublist after)
    {i : Nat} {a : A} (hitem : before[i]? = some a) :
    ∃ j, after[j]? = some a ∧ i ≤ j := by
  induction hgrow generalizing i with
  | slnil => cases hitem
  | cons other _ ih =>
      obtain ⟨j, hj, hle⟩ := ih hitem
      exact ⟨j + 1, hj, Nat.le_succ_of_le hle⟩
  | cons_cons first _ ih =>
      cases i with
      | zero => exact ⟨0, hitem, Nat.le_refl 0⟩
      | succ i =>
          obtain ⟨j, hj, hle⟩ := ih hitem
          exact ⟨j + 1, hj, Nat.succ_le_succ hle⟩

/-- What a table gains, its rows in order gain: the induction is on the table
that was there before. -/
theorem insertionSort_sublist {r : A → A → Prop} [DecidableRel r]
    [Std.Total r] [IsTrans A r] {before after : List A}
    (hgrow : before.Sublist after) :
    (before.insertionSort r).Sublist (after.insertionSort r) := by
  induction hgrow with
  | slnil => exact List.Sublist.refl _
  | cons other _ ih => exact ih.trans (List.sublist_orderedInsert other _)
  | cons_cons first _ ih =>
      exact ih.orderedInsert_sublist first (List.pairwise_insertionSort r _)

/-- An item not seen so far is still ahead: the induction is on the pages that
have been read. -/
theorem seen_or_ahead
    (hgrow : ∀ k, k + 1 < count → (lists k).Sublist (lists (k + 1)))
    {a : A} (ha : a ∈ lists 0) {n : Nat} (hn : n < count) :
    (∃ k, k < n ∧ a ∈ page size (k + 1) (lists k)) ∨
      ∃ i, (lists n)[i]? = some a ∧ n * size ≤ i := by
  induction n with
  | zero =>
      obtain ⟨i, hi⟩ := List.getElem?_of_mem ha
      exact .inr ⟨i, hi, by omega⟩
  | succ n ih =>
      rcases ih (by omega) with ⟨k, hk, hseen⟩ | ⟨i, hi, hahead⟩
      · exact .inl ⟨k, by omega, hseen⟩
      · by_cases hhere : i < (n + 1) * size
        · exact .inl ⟨n, by omega, mem_page hi hahead hhere⟩
        · obtain ⟨j, hj, hle⟩ := exists_index (hgrow n hn) hi
          exact .inr ⟨j, hj, by omega⟩

/-- Reading on until a page is not full shows everything that was there at the
beginning. -/
theorem seen_of_growing
    (hgrow : ∀ k, k + 1 < count + 1 → (lists k).Sublist (lists (k + 1)))
    (hshort : (page size (count + 1) (lists count)).length < size) {a : A}
    (ha : a ∈ lists 0) :
    ∃ k, k < count + 1 ∧ a ∈ page size (k + 1) (lists k) := by
  rcases seen_or_ahead hgrow ha (Nat.lt_succ_self count) with
    ⟨k, hk, hseen⟩ | ⟨i, hi, hahead⟩
  · exact ⟨k, by omega, hseen⟩
  · have hlength := length_le_of_short hshort
    have hlt := (List.getElem?_eq_some_iff.mp hi).1
    exact ⟨count, by omega, mem_page hi hahead (by omega)⟩

end Growing

end Paging
