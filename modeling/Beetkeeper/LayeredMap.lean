/-
A mapping read through layers of sources, the first of highest priority.
Reading the mapping as one value takes the first layer; enumerating its items
takes the union of the keys over all layers, each with the value of the first
layer that has it.
-/
import Mathlib.Data.List.Basic

namespace LayeredMap

universe u v

variable {K : Type u} {V : Type v}

/-- One source, as a partial map. -/
abbrev Layer (K : Type u) (V : Type v) := K → Option V

/-- The mapping the layers stand for, key by key. -/
def merged (layers : List (Layer K V)) : Layer K V :=
  fun k => layers.findSome? fun layer => layer k

/-- Every key of `lower` is one of `upper`. -/
def Covers (upper lower : Layer K V) : Prop :=
  ∀ k, (lower k).isSome = true → (upper k).isSome = true

@[simp] theorem merged_nil (k : K) :
    merged ([] : List (Layer K V)) k = none := rfl

theorem merged_cons (top : Layer K V) (rest : List (Layer K V)) (k : K) :
    merged (top :: rest) k = (top k).or (merged rest k) := by
  cases htop : top k <;> simp [merged, htop]

theorem merged_isSome_iff {layers : List (Layer K V)} {k : K} :
    (merged layers k).isSome = true ↔
      ∃ layer ∈ layers, (layer k).isSome = true := by
  induction layers with
  | nil => simp
  | cons top rest ih =>
      rw [merged_cons, Option.isSome_or, Bool.or_eq_true, ih]
      simp

/-- The enumeration shows the top layer alone exactly when the top layer has
every key of the layers below it. -/
theorem merged_eq_top_iff {top : Layer K V} {rest : List (Layer K V)} :
    merged (top :: rest) = top ↔ ∀ layer ∈ rest, Covers top layer := by
  constructor
  · intro heq layer hlayer k hk
    have hmerged : (merged rest k).isSome = true :=
      merged_isSome_iff.mpr ⟨layer, hlayer, hk⟩
    have htop := congrFun heq k
    rw [merged_cons] at htop
    cases hvalue : top k with
    | some value => rfl
    | none =>
        rw [hvalue, Option.none_or] at htop
        rw [htop] at hmerged
        cases hmerged
  · intro hcovers
    funext k
    rw [merged_cons]
    cases hvalue : top k with
    | some value => rfl
    | none =>
        rw [Option.none_or, ← Option.not_isSome_iff_eq_none]
        intro hsome
        obtain ⟨layer, hlayer, hk⟩ := merged_isSome_iff.mp hsome
        have htop := hcovers layer hlayer k hk
        rw [hvalue] at htop
        cases htop

section

variable [DecidableEq K]

/-- A source as it is stored: its entries in order. -/
def ofEntries (entries : List (K × V)) : Layer K V := fun k => entries.lookup k

/-- The items of the mapping: each key once, where it is first seen, with its
value. -/
def items (layers : List (List (K × V))) : List (K × V) :=
  (layers.flatten.map Prod.fst).eraseDups.filterMap fun k =>
    (merged (layers.map ofEntries) k).map fun value => (k, value)

theorem ofEntries_isSome_iff {entries : List (K × V)} {k : K} :
    (ofEntries entries k).isSome = true ↔ k ∈ entries.map Prod.fst := by
  simp only [ofEntries, List.lookup_isSome_iff, beq_iff_eq, List.mem_map]
  constructor
  · rintro ⟨entry, hmem, hkey⟩
    exact ⟨entry, hmem, hkey.symm⟩
  · rintro ⟨entry, hmem, hkey⟩
    exact ⟨entry, hmem, hkey.symm⟩

/-- A source covers another when it has all its keys. -/
theorem covers_ofEntries_iff {upper lower : List (K × V)} :
    Covers (ofEntries upper) (ofEntries lower) ↔
      ∀ k ∈ lower.map Prod.fst, k ∈ upper.map Prod.fst :=
  forall_congr' fun _ =>
    imp_congr ofEntries_isSome_iff ofEntries_isSome_iff

theorem ofEntries_filterMap (keys : List K) (value : Layer K V) (k : K) :
    ofEntries (keys.filterMap fun key => (value key).map fun v => (key, v)) k =
      if k ∈ keys then value k else none := by
  induction keys with
  | nil => rfl
  | cons key rest ih =>
      rw [ofEntries] at ih ⊢
      by_cases hkey : k = key
      · subst hkey
        cases hvalue : value k with
        | some v => simp [hvalue]
        | none =>
            rw [hvalue, ite_self] at ih
            simp [hvalue, ih]
      · have hne : (k == key) = false := by simpa using hkey
        cases hvalue : value key with
        | some v => simp [hvalue, List.lookup_cons, hne, ih, hkey]
        | none => simp [hvalue, ih, hkey]

/-- Looking a key up among the items is reading it through the layers. -/
theorem ofEntries_items (layers : List (List (K × V))) :
    ofEntries (items layers) = merged (layers.map ofEntries) := by
  funext k
  rw [items, ofEntries_filterMap]
  by_cases hmem : k ∈ (layers.flatten.map Prod.fst).eraseDups
  · rw [if_pos hmem]
  · rw [if_neg hmem]
    symm
    rw [← Option.not_isSome_iff_eq_none]
    intro hsome
    obtain ⟨layer, hlayer, hk⟩ := merged_isSome_iff.mp hsome
    obtain ⟨entries, hentries, rfl⟩ := List.mem_map.mp hlayer
    obtain ⟨entry, hentry, rfl⟩ :=
      List.mem_map.mp (ofEntries_isSome_iff.mp hk)
    exact hmem (List.mem_eraseDups.mpr (List.mem_map.mpr
      ⟨entry, List.mem_flatten.mpr ⟨entries, hentries, hentry⟩, rfl⟩))

end

end LayeredMap
