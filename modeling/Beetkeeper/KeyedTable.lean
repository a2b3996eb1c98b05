/-
A relational table with a primary key: its rows in insertion order, no two of
them under one key.  `UPDATE … WHERE`, `INSERT` and the affected-row count are
the operations a store built on conditional statements needs.
-/
import Mathlib.Data.List.Nodup

universe u v

/-- Rows under a primary key. -/
structure KeyedTable (R : Type u) {K : Type v} (key : R → K) where
  rows : List R
  keys_nodup : (rows.map key).Nodup

namespace KeyedTable

variable {R : Type u} {K : Type v} {key : R → K}

/-- The table without rows. -/
def empty : KeyedTable R key := ⟨[], List.nodup_nil⟩

/-- `SELECT … WHERE key = k`: the primary key admits at most one row. -/
def get? [DecidableEq K] (table : KeyedTable R key) (k : K) : Option R :=
  table.rows.find? fun row => decide (key row = k)

/-- `UPDATE … SET set WHERE cond`; the statement leaves the key alone. -/
def update (table : KeyedTable R key) (cond : R → Bool) (set : R → R)
    (hkey : ∀ row, key (set row) = key row) : KeyedTable R key where
  rows := table.rows.map fun row => if cond row then set row else row
  keys_nodup := by
    have hkeys : (table.rows.map fun row =>
        if cond row then set row else row).map key = table.rows.map key := by
      rw [List.map_map]
      apply List.map_congr_left
      intro row _
      by_cases hcond : cond row = true <;> simp [hcond, hkey]
    rw [hkeys]
    exact table.keys_nodup

/-- How many rows a statement with this condition touches. -/
def affected (table : KeyedTable R key) (cond : R → Bool) : Nat :=
  table.rows.countP cond

/-- `INSERT`, refused by the primary key when the key is taken. -/
def insert? [DecidableEq K] (table : KeyedTable R key) (row : R) :
    Option (KeyedTable R key) :=
  if h : key row ∈ table.rows.map key then none
  else some ⟨table.rows ++ [row], by
    rw [List.map_append, List.nodup_append']
    refine ⟨table.keys_nodup, List.nodup_singleton _, ?_⟩
    simpa using h⟩

/-- `DELETE … WHERE key = k`. -/
def delete [DecidableEq K] (table : KeyedTable R key) (k : K) :
    KeyedTable R key where
  rows := table.rows.filter fun row => decide (key row ≠ k)
  keys_nodup :=
    List.Nodup.sublist (List.filter_sublist.map key) table.keys_nodup

/-- `UPDATE … SET key`: the row under one key becomes a row under another,
refused by the primary key when that is taken.  The order of the rows is not
kept. -/
def rekey? [DecidableEq K] (table : KeyedTable R key) (row next : R) :
    Option (KeyedTable R key) :=
  (table.delete (key row)).insert? next

/-- `DELETE … WHERE cond`. -/
def deleteWhere (table : KeyedTable R key) (cond : R → Bool) :
    KeyedTable R key where
  rows := table.rows.filter fun row => !cond row
  keys_nodup :=
    List.Nodup.sublist (List.filter_sublist.map key) table.keys_nodup

/-- A statement that touches no row leaves the table as it is. -/
theorem update_of_unaffected {table : KeyedTable R key} {cond : R → Bool}
    {set : R → R} (hkey : ∀ row, key (set row) = key row)
    (hnone : table.affected cond = 0) :
    table.update cond set hkey = table := by
  have huntouched := List.countP_eq_zero.mp hnone
  obtain ⟨rows, hnodup⟩ := table
  simp only [update, mk.injEq]
  calc
    rows.map (fun row => if cond row then set row else row)
        = rows.map fun row => row :=
          List.map_congr_left fun row hrow => if_neg (huntouched row hrow)
    _ = rows := List.map_id' rows

section

variable [DecidableEq K]

@[simp] theorem mem_delete {table : KeyedTable R key} {k : K} {row : R} :
    row ∈ (table.delete k).rows ↔ row ∈ table.rows ∧ key row ≠ k := by
  simp [delete]

theorem get?_eq_some_iff {table : KeyedTable R key} {k : K} {row : R} :
    table.get? k = some row ↔ row ∈ table.rows ∧ key row = k := by
  constructor
  · intro hget
    have hkey := List.find?_some hget
    exact ⟨List.mem_of_find?_eq_some hget, by simpa using hkey⟩
  · rintro ⟨hmem, rfl⟩
    unfold get?
    cases hfound : table.rows.find? fun other => decide (key other = key row)
      with
    | none =>
        have hnone := List.find?_eq_none.mp hfound row hmem
        simp at hnone
    | some other =>
        have hsame : key other = key row := by
          simpa using List.find?_some hfound
        have hother := List.mem_of_find?_eq_some hfound
        have hrows : table.rows.Nodup := List.Nodup.of_map _ table.keys_nodup
        rw [(List.nodup_map_iff_inj_on hrows).mp table.keys_nodup
          other hother row hmem hsame]

theorem get?_deleteWhere_eq_some_iff {table : KeyedTable R key}
    {cond : R → Bool} {k : K} {row : R} :
    (table.deleteWhere cond).get? k = some row ↔
      table.get? k = some row ∧ cond row = false := by
  rw [get?_eq_some_iff, get?_eq_some_iff, deleteWhere, List.mem_filter,
    Bool.not_eq_true']
  exact and_right_comm

theorem get?_delete_eq_some_iff {table : KeyedTable R key} {k other : K}
    {row : R} :
    (table.delete k).get? other = some row ↔
      table.get? other = some row ∧ other ≠ k := by
  rw [get?_eq_some_iff, get?_eq_some_iff, mem_delete]
  constructor
  · rintro ⟨⟨hmem, hne⟩, rfl⟩
    exact ⟨⟨hmem, rfl⟩, hne⟩
  · rintro ⟨⟨hmem, rfl⟩, hne⟩
    exact ⟨⟨hmem, hne⟩, rfl⟩

theorem get?_deleteWhere (table : KeyedTable R key) (cond : R → Bool)
    (k : K) :
    (table.deleteWhere cond).get? k =
      (table.get? k).filter fun row => !cond row := by
  apply Option.ext
  intro row
  rw [get?_deleteWhere_eq_some_iff, Option.filter_eq_some_iff,
    Bool.not_eq_true']

theorem get?_delete (table : KeyedTable R key) (k other : K) :
    (table.delete k).get? other =
      if other = k then none else table.get? other := by
  apply Option.ext
  intro row
  rw [get?_delete_eq_some_iff]
  by_cases hother : other = k
  · simp [hother]
  · simp [hother]

theorem get?_key {table : KeyedTable R key} {k : K} {row : R}
    (hget : table.get? k = some row) : key row = k :=
  (get?_eq_some_iff.mp hget).2

theorem get?_of_mem {table : KeyedTable R key} {row : R}
    (hmem : row ∈ table.rows) : table.get? (key row) = some row :=
  get?_eq_some_iff.mpr ⟨hmem, rfl⟩

/-- The key tells rows apart. -/
theorem eq_of_key {table : KeyedTable R key} {row other : R}
    (hrow : row ∈ table.rows) (hother : other ∈ table.rows)
    (hkey : key row = key other) : row = other := by
  have hget := get?_of_mem hrow
  rw [hkey, get?_of_mem hother] at hget
  exact (Option.some.inj hget).symm

@[simp] theorem get?_update (table : KeyedTable R key) (cond : R → Bool)
    (set : R → R) (hkey : ∀ row, key (set row) = key row) (k : K) :
    (table.update cond set hkey).get? k =
      (table.get? k).map fun row => if cond row then set row else row := by
  simp only [get?, update, List.find?_map]
  congr 2
  funext row
  by_cases hcond : cond row = true <;> simp [hcond, hkey]

/-- A statement guarded by the key and a further test touches one row or
none, according to the test on the row under that key. -/
theorem affected_key (table : KeyedTable R key) (k : K) (test : R → Bool) :
    table.affected (fun row => decide (key row = k) && test row) =
      ((table.get? k).any test).toNat := by
  obtain ⟨rows, hnodup⟩ := table
  simp only [affected, get?]
  induction rows with
  | nil => rfl
  | cons head tail ih =>
      simp only [List.map_cons, List.nodup_cons] at hnodup
      by_cases hhead : key head = k
      · have htail : tail.countP
            (fun row => decide (key row = k) && test row) = 0 := by
          rw [List.countP_eq_zero]
          intro row hrow
          have hne : key row ≠ k := fun heq =>
            hnodup.1 (List.mem_map.mpr ⟨row, hrow, heq.trans hhead.symm⟩)
          simp [hne]
        cases htest : test head <;> simp [hhead, htest, htail]
      · simpa [hhead] using ih hnodup.2

theorem affected_key_eq_one_iff {table : KeyedTable R key} {k : K}
    {test : R → Bool} :
    table.affected (fun row => decide (key row = k) && test row) = 1 ↔
      ∃ row, table.get? k = some row ∧ test row = true := by
  rw [affected_key]
  cases table.get? k <;> simp

theorem key_mem_iff {table : KeyedTable R key} {k : K} :
    k ∈ table.rows.map key ↔ table.get? k ≠ none := by
  simp [get?]

theorem insert?_eq_some_iff {table next : KeyedTable R key} {row : R} :
    table.insert? row = some next ↔
      table.get? (key row) = none ∧ next.rows = table.rows ++ [row] := by
  unfold insert?
  split
  · rename_i htaken
    simp [key_mem_iff.mp htaken]
  · rename_i hfree
    have hnone : table.get? (key row) = none := by
      by_contra hsome
      exact hfree (key_mem_iff.mpr hsome)
    cases next
    simp [hnone, eq_comm]

theorem exists_insert? {table : KeyedTable R key} {row : R}
    (hfree : table.get? (key row) = none) :
    ∃ next, table.insert? row = some next := by
  unfold insert?
  split
  · rename_i htaken
    exact absurd hfree (key_mem_iff.mp htaken)
  · exact ⟨_, rfl⟩

theorem get?_insert? {table next : KeyedTable R key} {row : R}
    (hinsert : table.insert? row = some next) (k : K) :
    next.get? k = if key row = k then some row else table.get? k := by
  obtain ⟨hnone, hrows⟩ := insert?_eq_some_iff.mp hinsert
  unfold get? at hnone ⊢
  rw [hrows, List.find?_append]
  by_cases hk : key row = k
  · subst hk
    rw [hnone]
    simp
  · simp [hk]

theorem get?_rekey? {table after : KeyedTable R key} {row next : R}
    (hrekey : table.rekey? row next = some after) (k : K) :
    after.get? k =
      if key next = k then some next
      else if k = key row then none else table.get? k := by
  rw [get?_insert? hrekey, get?_delete]

/-- A free key, or the row's own, is never refused. -/
theorem exists_rekey? {table : KeyedTable R key} {row next : R}
    (hfree : key next ≠ key row → table.get? (key next) = none) :
    ∃ after, table.rekey? row next = some after := by
  have hnone : (table.delete (key row)).get? (key next) = none := by
    rw [get?_delete]
    by_cases hsame : key next = key row
    · rw [if_pos hsame]
    · rw [if_neg hsame, hfree hsame]
  exact exists_insert? hnone

end

end KeyedTable
