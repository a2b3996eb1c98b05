/-
Rows that carry the number of the record they belong to: grouping a table by
that number, and tables to which every record of a list adds a block of its
own.
-/
import Mathlib.Data.List.Basic
import Mathlib.Data.List.Induction
import Mathlib.Data.List.Nodup

namespace GroupedRows

universe u v w

variable {R : Type u} {K : Type v} {V : Type w}

section Grouping

variable [DecidableEq K]

/-- The rows under a key. -/
def rowsOf (key : R → K) (rows : List R) (k : K) : List R :=
  rows.filter fun row => key row = k

theorem rowsOf_append (key : R → K) (first second : List R) (k : K) :
    rowsOf key (first ++ second) k =
      rowsOf key first k ++ rowsOf key second k :=
  List.filter_append ..

theorem rowsOf_self {key : R → K} {rows : List R} {k : K}
    (hkey : ∀ row ∈ rows, key row = k) : rowsOf key rows k = rows :=
  List.filter_eq_self.mpr fun row hrow => decide_eq_true (hkey row hrow)

theorem rowsOf_eq_nil {key : R → K} {rows : List R} {k : K}
    (hkey : ∀ row ∈ rows, key row ≠ k) : rowsOf key rows k = [] := by
  rw [rowsOf, List.filter_eq_nil_iff]
  intro row hrow hsame
  exact hkey row hrow (of_decide_eq_true hsame)

/-- A dictionary of lists in which a missing key reads as the empty list: the
list under one key is replaced. -/
def set (groups : K → List V) (key : K) (values : List V) : K → List V :=
  fun other => if other = key then values else groups other

@[simp] theorem set_self (groups : K → List V) (key : K) (values : List V) :
    set groups key values key = values := if_pos rfl

theorem set_of_ne (groups : K → List V) {key other : K} (values : List V)
    (hne : other ≠ key) : set groups key values other = groups other :=
  if_neg hne

/-- Every row's value is appended to the list under the row's key. -/
def group (key : R → K) (value : R → V) (rows : List R) : K → List V :=
  rows.foldl
    (fun groups row => set groups (key row) (groups (key row) ++ [value row]))
    fun _ => []

theorem foldl_set_apply (key : R → K) (keeps : R → Bool)
    (extend : List V → R → List V) (rows : List R) (groups : K → List V)
    (k : K) :
    rows.foldl (fun groups row =>
        if keeps row then set groups (key row) (extend (groups (key row)) row)
        else groups) groups k =
      (rows.filter fun row => decide (key row = k) && keeps row).foldl extend
        (groups k) := by
  induction rows generalizing groups with
  | nil => rfl
  | cons row rest ih =>
      rw [List.foldl_cons, ih]
      by_cases hkeeps : keeps row = true
      · by_cases hkey : key row = k
        · subst hkey
          rw [if_pos hkeeps, set_self,
            List.filter_cons_of_pos (by simp [hkeeps]), List.foldl_cons]
        · rw [if_pos hkeeps, set_of_ne _ _ (Ne.symm hkey),
            List.filter_cons_of_neg (by simp [hkey])]
      · rw [if_neg hkeeps, List.filter_cons_of_neg (by simp [hkeeps])]

theorem foldl_append_singleton (value : R → V) (rows : List R)
    (values : List V) :
    rows.foldl (fun values row => values ++ [value row]) values =
      values ++ rows.map value := by
  induction rows generalizing values with
  | nil => rw [List.foldl_nil, List.map_nil, List.append_nil]
  | cons row rest ih =>
      rw [List.foldl_cons, ih, List.map_cons, List.append_assoc]
      rfl

/-- Grouping keeps the order of the rows under each key. -/
theorem group_apply (key : R → K) (value : R → V) (rows : List R) (k : K) :
    group key value rows k = (rowsOf key rows k).map value := by
  have hgroups := foldl_set_apply key (fun _ => true)
    (fun values row => values ++ [value row]) rows (fun _ => []) k
  simp only [if_true, Bool.and_true] at hgroups
  rw [group, hgroups, foldl_append_singleton, List.nil_append, rowsOf]

end Grouping

section Distinct

variable [DecidableEq V]

/-- A value is appended unless it is there. -/
def appendNew (values : List V) (value : V) : List V :=
  if value ∈ values then values else values ++ [value]

/-- The distinct values of the rows, each where it comes first. -/
def distinct (value : R → V) (rows : List R) : List V :=
  rows.foldl (fun values row => appendNew values (value row)) []

theorem distinct_concat (value : R → V) (rows : List R) (row : R) :
    distinct value (rows ++ [row]) =
      appendNew (distinct value rows) (value row) := by
  rw [distinct, List.foldl_append]
  rfl

theorem mem_appendNew {values : List V} {value other : V} :
    other ∈ appendNew values value ↔ other ∈ values ∨ other = value := by
  rw [appendNew]
  by_cases hmem : value ∈ values
  · rw [if_pos hmem]
    exact ⟨.inl, fun hor => hor.elim id fun hsame => hsame ▸ hmem⟩
  · rw [if_neg hmem, List.mem_append, List.mem_singleton]

theorem mem_distinct {value : R → V} {rows : List R} {v : V} :
    v ∈ distinct value rows ↔ ∃ row ∈ rows, value row = v := by
  induction rows using List.reverseRecOn with
  | nil => simp [distinct]
  | append_singleton rows row ih =>
      rw [distinct_concat, mem_appendNew, ih]
      constructor
      · rintro (⟨other, hmem, rfl⟩ | rfl)
        · exact ⟨other, List.mem_append_left _ hmem, rfl⟩
        · exact ⟨row, List.mem_append_right _ List.mem_cons_self, rfl⟩
      · rintro ⟨other, hmem, rfl⟩
        rcases List.mem_append.mp hmem with hrows | hlast
        · exact .inl ⟨other, hrows, rfl⟩
        · exact .inr (congrArg value (List.mem_singleton.mp hlast))

theorem nodup_distinct (value : R → V) (rows : List R) :
    (distinct value rows).Nodup := by
  induction rows using List.reverseRecOn with
  | nil => exact List.nodup_nil
  | append_singleton rows row ih =>
      rw [distinct_concat, appendNew]
      by_cases hmem : value row ∈ distinct value rows
      · rw [if_pos hmem]
        exact ih
      · rw [if_neg hmem]
        exact List.nodup_append.mpr ⟨ih, List.nodup_singleton _,
          fun v hv other hother hsame =>
            hmem (List.mem_singleton.mp hother ▸ hsame ▸ hv)⟩

/-- A value stands before another exactly where its first row stands before
every row of the other. -/
theorem pairwise_distinct {value : R → V} {Before : R → R → Prop}
    {rows : List R} (hrows : rows.Pairwise Before) :
    (distinct value rows).Pairwise fun v other =>
      ∀ later ∈ rows, value later = other →
        ∃ row ∈ rows, value row = v ∧ Before row later := by
  induction rows using List.reverseRecOn with
  | nil => exact List.Pairwise.nil
  | append_singleton rows row ih =>
      obtain ⟨hbefore, -, hlast⟩ := List.pairwise_append.mp hrows
      have hfirst : ∀ v ∈ distinct value rows, ∃ first ∈ rows ++ [row],
          value first = v ∧ Before first row := by
        intro v hv
        obtain ⟨first, hmem, hvalue⟩ := mem_distinct.mp hv
        exact ⟨first, List.mem_append_left _ hmem, hvalue,
          hlast first hmem row List.mem_cons_self⟩
      have hkept := (ih hbefore).imp_of_mem
        (S := fun v other => ∀ later ∈ rows ++ [row], value later = other →
          ∃ first ∈ rows ++ [row], value first = v ∧ Before first later)
        fun {v other} hv _ hpair later hlater hvalue => by
          rcases List.mem_append.mp hlater with hmem | hmem
          · obtain ⟨first, hfirst, hrest⟩ := hpair later hmem hvalue
            exact ⟨first, List.mem_append_left _ hfirst, hrest⟩
          · rw [List.mem_singleton.mp hmem]
            exact hfirst v hv
      rw [distinct_concat, appendNew]
      by_cases hmem : value row ∈ distinct value rows
      · rw [if_pos hmem]
        exact hkept
      · rw [if_neg hmem, List.pairwise_append]
        refine ⟨hkept, List.pairwise_singleton _ _, ?_⟩
        intro v hv other hother later hlater hvalue
        rw [List.mem_singleton.mp hother] at hvalue
        rcases List.mem_append.mp hlater with hearlier | hsame
        · exact absurd (mem_distinct.mpr ⟨later, hearlier, hvalue⟩) hmem
        · rw [List.mem_singleton.mp hsame]
          exact hfirst v hv

end Distinct

section Leaders

variable [DecidableEq K]

/-- The first row of each key, in order. -/
def leaders (key : R → K) : List R → List R
  | [] => []
  | row :: rest =>
      row :: (leaders key rest).filter fun other =>
        decide (key other ≠ key row)

/-- The first rows of the keys that were not seen before. -/
def newLeaders (key : R → K) (seen : List K) (rows : List R) : List R :=
  (leaders key rows).filter fun row => decide (key row ∉ seen)

theorem newLeaders_nil_right (key : R → K) (seen : List K) :
    newLeaders key seen [] = [] := rfl

theorem newLeaders_nil (key : R → K) (rows : List R) :
    newLeaders key [] rows = leaders key rows := by
  rw [newLeaders, List.filter_eq_self]
  intro row _
  exact decide_eq_true List.not_mem_nil

theorem newLeaders_cons_of_mem {key : R → K} {seen : List K} {row : R}
    (hseen : key row ∈ seen) (rest : List R) :
    newLeaders key seen (row :: rest) = newLeaders key seen rest := by
  rw [newLeaders, leaders, List.filter_cons_of_neg (by simpa using hseen),
    List.filter_filter, newLeaders]
  apply List.filter_congr
  intro other _
  by_cases hother : key other ∈ seen
  · simp [hother]
  · have hne : key other ≠ key row := fun hsame => hother (hsame ▸ hseen)
    simp [hother, hne]

theorem newLeaders_cons_of_not_mem {key : R → K} {seen : List K} {row : R}
    (hnew : key row ∉ seen) (rest : List R) :
    newLeaders key seen (row :: rest) =
      row :: newLeaders key (key row :: seen) rest := by
  rw [newLeaders, leaders, List.filter_cons_of_pos (by simpa using hnew),
    List.filter_filter, newLeaders]
  congr 1
  apply List.filter_congr
  intro other _
  simp [List.mem_cons, not_or, Bool.and_comm]

end Leaders

section Blocks

variable {A : Type u} {B : Type v}

/-- The rows of a list of records, numbered from `start` on. -/
def blocks (rows : Nat → A → List B) (records : List A) (start : Nat) :
    List B :=
  (records.zipIdx start).flatMap fun entry => rows entry.2 entry.1

theorem blocks_cons (rows : Nat → A → List B) (record : A)
    (rest : List A) (start : Nat) :
    blocks rows (record :: rest) start =
      rows start record ++ blocks rows rest (start + 1) := rfl

theorem flatMap_blocks {C : Type w} (rows : Nat → A → List B)
    (image : B → List C) (records : List A) (start : Nat) :
    (blocks rows records start).flatMap image =
      blocks (fun n record => (rows n record).flatMap image) records start :=
  List.flatMap_assoc

theorem filter_blocks (rows : Nat → A → List B) (keep : B → Bool)
    (records : List A) (start : Nat) :
    (blocks rows records start).filter keep =
      blocks (fun n record => (rows n record).filter keep) records start :=
  List.filter_flatMap

/-- Blocks may be replaced one by one. -/
theorem blocks_congr {rows other : Nat → A → List B} {records : List A}
    {start : Nat} (hrows : ∀ k record, records[k]? = some record →
      rows (start + k) record = other (start + k) record) :
    blocks rows records start = blocks other records start := by
  induction records generalizing start with
  | nil => rfl
  | cons record rest ih =>
      have hhead : rows start record = other start record := hrows 0 record rfl
      rw [blocks_cons, blocks_cons, hhead, ih]
      intro k later hlater
      rw [show start + 1 + k = start + (k + 1) by omega]
      exact hrows (k + 1) later hlater

/-- A record that is added brings its block with it. -/
theorem blocks_append (rows : Nat → A → List B) (first second : List A)
    (start : Nat) :
    blocks rows (first ++ second) start =
      blocks rows first start ++
        blocks rows second (start + first.length) := by
  rw [blocks, List.zipIdx_append, List.flatMap_append]
  rfl

theorem blocks_concat (rows : Nat → A → List B) (records : List A)
    (record : A) (start : Nat) :
    blocks rows (records ++ [record]) start =
      blocks rows records start ++ rows (start + records.length) record := by
  rw [blocks, List.zipIdx_append, List.flatMap_append]
  simp [blocks]

theorem mem_blocks_iff {rows : Nat → A → List B} {records : List A}
    {start : Nat} {row : B} :
    row ∈ blocks rows records start ↔
      ∃ k record, records[k]? = some record ∧
        row ∈ rows (start + k) record := by
  induction records generalizing start with
  | nil => simp [blocks]
  | cons head rest ih =>
      rw [blocks_cons, List.mem_append, ih]
      constructor
      · rintro (hhead | ⟨k, record, hrecord, hrow⟩)
        · exact ⟨0, head, rfl, hhead⟩
        · refine ⟨k + 1, record, hrecord, ?_⟩
          rwa [show start + (k + 1) = start + 1 + k by omega]
      · rintro ⟨k, record, hrecord, hrow⟩
        cases k with
        | zero =>
            obtain rfl := Option.some.inj hrecord
            exact .inl hrow
        | succ k =>
            refine .inr ⟨k, record, hrecord, ?_⟩
            rwa [show start + 1 + k = start + (k + 1) by omega]

section Single

variable {row : Nat → A → B}

/-- Records of one row each: what holds of two records in their order holds of
their rows. -/
theorem pairwise_blocks {P : A → A → Prop} {Q : B → B → Prop}
    (hrows : ∀ n m record later, n < m → P record later →
      Q (row n record) (row m later))
    {records : List A} (hrecords : records.Pairwise P) (start : Nat) :
    (blocks (fun n record => [row n record]) records start).Pairwise Q := by
  induction records generalizing start with
  | nil => exact List.Pairwise.nil
  | cons record rest ih =>
      obtain ⟨hhead, htail⟩ := List.pairwise_cons.mp hrecords
      rw [blocks_cons, List.singleton_append]
      refine List.Pairwise.cons ?_ (ih htail (start + 1))
      intro other hother
      obtain ⟨k, later, hlater, hmem⟩ := mem_blocks_iff.mp hother
      rw [List.mem_singleton.mp hmem]
      exact hrows _ _ _ _ (by omega)
        (hhead later (List.mem_of_getElem? hlater))

theorem map_blocks {C : Type w} {value : B → C} {image : A → C}
    {records : List A} {start : Nat}
    (hvalue : ∀ k record, records[k]? = some record →
      value (row (start + k) record) = image record) :
    (blocks (fun n record => [row n record]) records start).map value =
      records.map image := by
  induction records generalizing start with
  | nil => rfl
  | cons record rest ih =>
      have hhead : value (row start record) = image record :=
        hvalue 0 record rfl
      rw [blocks_cons, List.singleton_append, List.map_cons, List.map_cons,
        hhead, ih]
      intro k later hlater
      rw [show start + 1 + k = start + (k + 1) by omega]
      exact hvalue (k + 1) later hlater

end Single

variable {rows : Nat → A → List B} {number : B → Nat}

theorem rowsOf_blocks_of_lt (hnumber : ∀ n record, ∀ row ∈ rows n record,
      number row = n) {records : List A} {start n : Nat} (hlt : n < start) :
    rowsOf number (blocks rows records start) n = [] := by
  apply rowsOf_eq_nil
  intro row hrow
  obtain ⟨k, record, -, hmem⟩ := mem_blocks_iff.mp hrow
  rw [hnumber _ _ row hmem]
  omega

/-- The rows under a record's number are its own block. -/
theorem rowsOf_blocks (hnumber : ∀ n record, ∀ row ∈ rows n record,
      number row = n) {records : List A} {start k : Nat} {record : A}
    (hrecord : records[k]? = some record) :
    rowsOf number (blocks rows records start) (start + k) =
      rows (start + k) record := by
  induction records generalizing start k with
  | nil => cases hrecord
  | cons head rest ih =>
      rw [blocks_cons, rowsOf_append]
      cases k with
      | zero =>
          obtain rfl := Option.some.inj hrecord
          rw [Nat.add_zero, rowsOf_self (hnumber start head),
            rowsOf_blocks_of_lt hnumber (Nat.lt_succ_self start),
            List.append_nil]
      | succ k =>
          have hother : ∀ row ∈ rows start head,
              number row ≠ start + (k + 1) := by
            intro row hrow
            rw [hnumber _ _ row hrow]
            omega
          rw [rowsOf_eq_nil hother, List.nil_append,
            show start + (k + 1) = start + 1 + k by omega]
          exact ih hrecord

end Blocks

end GroupedRows
