/-
Absolute paths as written and as normalised.  Normalisation is lexical: it
drops `.`, and `..` cancels the name before it, without asking any file
system.  Containment of normalised paths is the prefix order.
-/
import Mathlib.Data.List.Infix

namespace LexicalPath

universe u

variable {N : Type u}

/-- One component of a path as written. -/
inductive Segment (N : Type u) where
  | here
  | up
  | name (n : N)
deriving Repr, DecidableEq

/-- The components of an absolute path, as somebody wrote it. -/
abbrev RawPath (N : Type u) := List (Segment N)

/-- The names on the way from the root. -/
abbrev Location (N : Type u) := List N

/-- Walk one component; `..` at the root stays at the root. -/
def push (current : Location N) : Segment N → Location N
  | .here => current
  | .up => current.dropLast
  | .name n => current ++ [n]

def normpath (raw : RawPath N) : Location N := raw.foldl push []

/-- A location written out again. -/
def spell (location : Location N) : RawPath N := location.map .name

theorem foldl_push_spell (current location : Location N) :
    (spell location).foldl push current = current ++ location := by
  induction location generalizing current with
  | nil => simp [spell]
  | cons n rest ih =>
      simp only [spell, List.map_cons, List.foldl_cons] at ih ⊢
      rw [ih]
      simp [push]

@[simp] theorem normpath_spell (location : Location N) :
    normpath (spell location) = location := by
  simp [normpath, foldl_push_spell]

/-- The ancestors of a path, root first: every proper prefix of it. -/
def ancestry (path : Location N) : List (Location N) :=
  (List.range path.length).map fun depth => path.take depth

theorem mem_ancestry_iff {path root : Location N} :
    root ∈ ancestry path ↔ root <+: path ∧ root ≠ path := by
  simp only [ancestry, List.mem_map, List.mem_range]
  constructor
  · rintro ⟨depth, hdepth, rfl⟩
    refine ⟨List.take_prefix depth path, fun heq => ?_⟩
    have hlength := congrArg List.length heq
    rw [List.length_take] at hlength
    omega
  · rintro ⟨hpre, hne⟩
    refine ⟨root.length, ?_, (List.prefix_iff_eq_take.mp hpre).symm⟩
    rcases Nat.lt_or_ge root.length path.length with hlt | hge
    · exact hlt
    · exact absurd (hpre.eq_of_length_le hge) hne

/-- The ancestors of a path and the path itself, each longer than the ones
before it. -/
theorem pairwise_ancestry_concat (path : Location N) :
    (ancestry path ++ [path]).Pairwise fun outer inner =>
      outer.length < inner.length := by
  rw [List.pairwise_append]
  refine ⟨?_, List.pairwise_singleton _ _, fun outer houter inner hinner => ?_⟩
  · rw [ancestry, List.pairwise_map]
    refine List.pairwise_lt_range.imp_of_mem fun {a b} _ hb hlt => ?_
    have hdepth := List.mem_range.mp hb
    rw [List.length_take, List.length_take]
    omega
  · obtain ⟨hpre, hne⟩ := mem_ancestry_iff.mp houter
    rw [List.mem_singleton.mp hinner]
    exact lt_of_le_of_ne hpre.length_le fun hlength =>
      hne (hpre.eq_of_length hlength)

variable [DecidableEq N]

instance : LawfulBEq (Location N) := inferInstance

/-- The containment test of a path against a root. -/
def inside (path root : Location N) : Bool :=
  decide (path = root) || decide (root ∈ ancestry path)

@[simp] theorem inside_iff {path root : Location N} :
    inside path root = true ↔ root <+: path := by
  simp only [inside, Bool.or_eq_true, decide_eq_true_eq, mem_ancestry_iff]
  constructor
  · rintro (rfl | ⟨hpre, _⟩)
    · exact List.prefix_rfl
    · exact hpre
  · intro hpre
    by_cases heq : path = root
    · exact Or.inl heq
    · exact Or.inr ⟨hpre, fun h => heq h.symm⟩

end LexicalPath
