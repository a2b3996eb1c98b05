/-
Straight-line programs that may be interrupted.  A step either completes or
leaves some state of its own behind when an exception cuts it short; what
holds after every prefix of a program is found by an invariant of its steps.
-/

universe u v

/-- What the steps of a program do to a state: where they lead when they
complete, and what an interruption in their midst may leave. -/
structure Interruptible (T : Type u) (S : Type v) where
  completes : T → S → S → Prop
  leaves : T → S → S → Prop

namespace Interruptible

variable {T : Type u} {S : Type v} {machine : Interruptible T S}

/-- The program runs to its end. -/
inductive Completes (machine : Interruptible T S) : List T → S → S → Prop
  | nil (state : S) : Completes machine [] state state
  | cons {step : T} {rest : List T} {before middle after : S}
      (hstep : machine.completes step before middle)
      (hrest : Completes machine rest middle after) :
      Completes machine (step :: rest) before after

/-- A state the program is in between two of its steps, or that an
interruption leaves. -/
inductive Passes (machine : Interruptible T S) : List T → S → S → Prop
  | here (program : List T) (state : S) : Passes machine program state state
  | cut {step : T} {rest : List T} {before after : S}
      (hstep : machine.leaves step before after) :
      Passes machine (step :: rest) before after
  | next {step : T} {rest : List T} {before middle after : S}
      (hstep : machine.completes step before middle)
      (hrest : Passes machine rest middle after) :
      Passes machine (step :: rest) before after

theorem Completes.passes {program : List T} {before after : S}
    (hcompletes : machine.Completes program before after) :
    machine.Passes program before after := by
  induction hcompletes with
  | nil state => exact .here [] state
  | cons hstep _ ih => exact .next hstep ih

theorem Completes.append {first second : List T} {before middle after : S}
    (hfirst : machine.Completes first before middle)
    (hsecond : machine.Completes second middle after) :
    machine.Completes (first ++ second) before after := by
  induction hfirst with
  | nil state => exact hsecond
  | cons hstep _ ih => exact .cons hstep (ih hsecond)

theorem completes_append_iff {first second : List T} {before after : S} :
    machine.Completes (first ++ second) before after ↔
      ∃ middle, machine.Completes first before middle ∧
        machine.Completes second middle after := by
  constructor
  · intro hcompletes
    induction first generalizing before with
    | nil => exact ⟨before, .nil before, hcompletes⟩
    | cons step rest ih =>
        cases hcompletes with
        | cons hstep hrest =>
            obtain ⟨middle, hdone, hsecond⟩ := ih hrest
            exact ⟨middle, .cons hstep hdone, hsecond⟩
  · rintro ⟨middle, hfirst, hsecond⟩
    exact hfirst.append hsecond

/-- A program passes through what its first part passes through, and once that
has completed through what its second part does. -/
theorem passes_append_iff {first second : List T} {before after : S} :
    machine.Passes (first ++ second) before after ↔
      machine.Passes first before after ∨
        ∃ middle, machine.Completes first before middle ∧
          machine.Passes second middle after := by
  constructor
  · intro hpasses
    induction first generalizing before with
    | nil => exact Or.inr ⟨before, .nil before, hpasses⟩
    | cons step rest ih =>
        cases hpasses with
        | here => exact Or.inl (.here _ _)
        | cut hstep => exact Or.inl (.cut hstep)
        | next hstep hrest =>
            rcases ih hrest with hfirst | ⟨middle, hdone, hsecond⟩
            · exact Or.inl (.next hstep hfirst)
            · exact Or.inr ⟨middle, .cons hstep hdone, hsecond⟩
  · rintro (hfirst | ⟨middle, hdone, hsecond⟩)
    · induction hfirst with
      | here program state => exact .here _ _
      | cut hstep => exact .cut hstep
      | next hstep _ ih => exact .next hstep ih
    · induction hdone with
      | nil state => exact hsecond
      | cons hstep _ ih => exact .next hstep (ih hsecond)

/-- An invariant of every step of a program holds of all it passes through. -/
theorem Passes.sound {holds : S → Prop} {program : List T} {before after : S}
    (hpasses : machine.Passes program before after)
    (hcompletes : ∀ step ∈ program, ∀ state next, holds state →
      machine.completes step state next → holds next)
    (hleaves : ∀ step ∈ program, ∀ state next, holds state →
      machine.leaves step state next → holds next)
    (hbefore : holds before) : holds after := by
  induction hpasses with
  | here program state => exact hbefore
  | cut hstep => exact hleaves _ List.mem_cons_self _ _ hbefore hstep
  | next hstep _ ih =>
      apply ih
      · exact fun step hmem => hcompletes step (List.mem_cons_of_mem _ hmem)
      · exact fun step hmem => hleaves step (List.mem_cons_of_mem _ hmem)
      · exact hcompletes _ List.mem_cons_self _ _ hbefore hstep

end Interruptible
