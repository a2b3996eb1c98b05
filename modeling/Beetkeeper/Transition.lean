/-
Finite runs of a transition system given by a partial, labelled step function.
A run theorem of this development is one of two things: an invariant carried
through the admitted steps of a run, or a property of every step of a run.
Both rules are stated here once, over an arbitrary step function.
-/
import Mathlib.Logic.Basic
import Mathlib.Data.List.Basic

namespace Transition

universe u v

variable {S : Type u} {A : Type v}

/-- Execute the actions from left to right.  The result is `none` as soon as
one of them is not enabled. -/
def exec (step : S → A → Option S) : S → List A → Option S
  | state, [] => some state
  | state, action :: rest =>
      (step state action).bind fun next => exec step next rest

/-- Every step the run takes satisfies `P before action after`. -/
def EveryStep (step : S → A → Option S) (P : S → A → S → Prop) :
    S → List A → Prop
  | _, [] => True
  | state, action :: rest => ∀ next, step state action = some next →
      P state action next ∧ EveryStep step P next rest

/-- The run takes only steps that `ok` admits in the state they start from. -/
def Admitted (step : S → A → Option S) (ok : S → A → Prop) :
    S → List A → Prop :=
  EveryStep step fun before action _ => ok before action

/-- Admission is decided by executing the run. -/
instance decidableAdmitted (step : S → A → Option S) (ok : S → A → Prop)
    [∀ state action, Decidable (ok state action)] :
    (state : S) → (actions : List A) →
      Decidable (Admitted step ok state actions)
  | _, [] => isTrue trivial
  | state, action :: rest =>
      match hstep : step state action with
      | none => isTrue fun next hnext => by
          rw [hstep] at hnext
          cases hnext
      | some next =>
          have := decidableAdmitted step ok next rest
          decidable_of_iff
            (ok state action ∧ Admitted step ok next rest) <| by
              constructor
              · intro hboth other hother
                rw [hstep] at hother
                obtain rfl := Option.some.inj hother
                exact hboth
              · exact fun hall => hall next hstep

variable {step : S → A → Option S}

@[simp] theorem exec_nil (state : S) : exec step state [] = some state := rfl

theorem exec_cons_eq_some {state final : S} {action : A} {rest : List A} :
    exec step state (action :: rest) = some final ↔
      ∃ next, step state action = some next ∧
        exec step next rest = some final := by
  simp [exec, Option.bind_eq_some_iff]

theorem exec_append_eq_some {state final : S} {first second : List A} :
    exec step state (first ++ second) = some final ↔
      ∃ middle, exec step state first = some middle ∧
        exec step middle second = some final := by
  induction first generalizing state with
  | nil => simp
  | cons action rest ih =>
      simp only [List.cons_append, exec_cons_eq_some, ih]
      constructor
      · rintro ⟨next, hstep, middle, hfirst, hsecond⟩
        exact ⟨middle, ⟨next, hstep, hfirst⟩, hsecond⟩
      · rintro ⟨middle, ⟨next, hstep, hfirst⟩, hsecond⟩
        exact ⟨next, hstep, middle, hfirst, hsecond⟩

/-- The invariant rule: what the admitted steps keep holds wherever an
admitted run ends. -/
theorem invariant_of_admitted {Inv : S → Prop} {ok : S → A → Prop}
    (hkeep : ∀ before action after, Inv before → ok before action →
      step before action = some after → Inv after)
    {state final : S} {actions : List A} (hinit : Inv state)
    (hadmitted : Admitted step ok state actions)
    (hexec : exec step state actions = some final) : Inv final := by
  induction actions generalizing state with
  | nil =>
      obtain rfl := Option.some.inj hexec
      exact hinit
  | cons action rest ih =>
      obtain ⟨next, hstep, hrest⟩ := exec_cons_eq_some.mp hexec
      obtain ⟨hok, htail⟩ := hadmitted next hstep
      exact ih (hkeep _ _ _ hinit hok hstep) htail hrest

/-- What an invariant and the admission of a step give holds of every step
of an admitted run. -/
theorem everyStep_of_admitted {Inv : S → Prop} {ok : S → A → Prop}
    {P : S → A → S → Prop}
    (hkeep : ∀ before action after, Inv before → ok before action →
      step before action = some after → Inv after)
    (hholds : ∀ before action after, Inv before → ok before action →
      step before action = some after → P before action after)
    {state : S} {actions : List A} (hinit : Inv state)
    (hadmitted : Admitted step ok state actions) :
    EveryStep step P state actions := by
  induction actions generalizing state with
  | nil => trivial
  | cons action rest ih =>
      intro next hstep
      obtain ⟨hok, htail⟩ := hadmitted next hstep
      exact ⟨hholds _ _ _ hinit hok hstep,
        ih (hkeep _ _ _ hinit hok hstep) htail⟩

/-- A run is admitted when its labels alone keep an invariant under which
every one of them is. -/
theorem admitted_of_labels {Inv : S → Prop} {allowed : A → Prop}
    {ok : S → A → Prop}
    (hkeep : ∀ before action after, Inv before → allowed action →
      step before action = some after → Inv after)
    (hok : ∀ before action, Inv before → allowed action → ok before action)
    {state : S} {actions : List A} (hinit : Inv state)
    (hallowed : ∀ action ∈ actions, allowed action) :
    Admitted step ok state actions := by
  induction actions generalizing state with
  | nil => trivial
  | cons action rest ih =>
      intro next hstep
      have hhead := hallowed action List.mem_cons_self
      exact ⟨hok _ _ hinit hhead, ih (hkeep _ _ _ hinit hhead hstep)
        fun other hother => hallowed other (List.mem_cons_of_mem _ hother)⟩

/-- Admission that looks at the labels only. -/
theorem admitted_of_forall {allowed : A → Prop} (state : S)
    {actions : List A} (hallowed : ∀ action ∈ actions, allowed action) :
    Admitted step (fun _ action => allowed action) state actions :=
  admitted_of_labels (fun _ _ _ _ _ _ => trivial) (fun _ _ _ hhead => hhead)
    trivial hallowed

/-- The step after an initial part of a run is one of its steps. -/
theorem everyStep_concat {P : S → A → S → Prop} {state middle final : S}
    {actions : List A} {action : A}
    (hevery : EveryStep step P state (actions ++ [action]))
    (hexec : exec step state actions = some middle)
    (hstep : step middle action = some final) : P middle action final := by
  induction actions generalizing state with
  | nil =>
      obtain rfl := Option.some.inj hexec
      exact (hevery final hstep).1
  | cons head rest ih =>
      obtain ⟨next, hnext, hrest⟩ := exec_cons_eq_some.mp hexec
      exact ih (hevery next hnext).2 hrest

/-- A property of every step of one run and of every step of a run from
where it ends is a property of every step of both together. -/
theorem everyStep_append {P : S → A → S → Prop} {state middle : S}
    {first second : List A} (hexec : exec step state first = some middle)
    (hfirst : EveryStep step P state first)
    (hsecond : EveryStep step P middle second) :
    EveryStep step P state (first ++ second) := by
  induction first generalizing state with
  | nil =>
      obtain rfl := Option.some.inj hexec
      exact hsecond
  | cons action rest ih =>
      obtain ⟨next, hstep, hrest⟩ := exec_cons_eq_some.mp hexec
      intro other hother
      obtain rfl := Option.some.inj (hstep.symm.trans hother)
      obtain ⟨hhead, htail⟩ := hfirst next hstep
      exact ⟨hhead, ih hrest htail⟩

/-- A run that nothing restricts. -/
theorem admitted_true (state : S) (actions : List A) :
    Admitted step (fun _ _ => True) state actions := by
  induction actions generalizing state with
  | nil => trivial
  | cons action rest ih => exact fun next _ => ⟨trivial, ih next⟩

/-- The invariant rule for unrestricted runs. -/
theorem invariant_of_exec {Inv : S → Prop}
    (hkeep : ∀ before action after, Inv before →
      step before action = some after → Inv after)
    {state final : S} {actions : List A} (hinit : Inv state)
    (hexec : exec step state actions = some final) : Inv final :=
  invariant_of_admitted
    (fun before action after hinv _ => hkeep before action after hinv)
    hinit (admitted_true state actions) hexec

/-- Two step properties that agree wherever the invariant holds agree along
every run from a state in which it holds; the invariant may rest on what
already held of the step. -/
theorem everyStep_congr_of {Inv : S → Prop} {P Q : S → A → S → Prop}
    (hkeep : ∀ before action after, Inv before →
      step before action = some after → P before action after → Inv after)
    (hagree : ∀ before action after, Inv before →
      step before action = some after →
      (P before action after ↔ Q before action after))
    {state : S} (hinit : Inv state) (actions : List A) :
    EveryStep step P state actions ↔ EveryStep step Q state actions := by
  induction actions generalizing state with
  | nil => exact Iff.rfl
  | cons action rest ih =>
      refine forall_congr' fun next => ?_
      refine imp_congr_right fun hstep => ?_
      have hhead := hagree _ _ _ hinit hstep
      constructor
      · rintro ⟨hP, hrest⟩
        exact ⟨hhead.mp hP, (ih (hkeep _ _ _ hinit hstep hP)).mp hrest⟩
      · rintro ⟨hQ, hrest⟩
        have hP := hhead.mpr hQ
        exact ⟨hP, (ih (hkeep _ _ _ hinit hstep hP)).mpr hrest⟩

/-- The case of an invariant that every step keeps. -/
theorem everyStep_congr {Inv : S → Prop} {P Q : S → A → S → Prop}
    (hkeep : ∀ before action after, Inv before →
      step before action = some after → Inv after)
    (hagree : ∀ before action after, Inv before →
      step before action = some after →
      (P before action after ↔ Q before action after))
    {state : S} (hinit : Inv state) (actions : List A) :
    EveryStep step P state actions ↔ EveryStep step Q state actions :=
  everyStep_congr_of
    (fun before action after hinv hstep _ =>
      hkeep before action after hinv hstep)
    hagree hinit actions

section History

variable {H : Type*}

/-- The system with a history beside it, which every step may extend and none
reads. -/
def recording (step : S → A → Option S) (note : S → A → H → H)
    (state : S × H) (action : A) : Option (S × H) :=
  (step state.1 action).map fun next => (next, note state.1 action state.2)

variable {note : S → A → H → H}

theorem recording_eq_some {before after : S × H} {action : A} :
    recording step note before action = some after ↔
      step before.1 action = some after.1 ∧
        after.2 = note before.1 action before.2 := by
  simp only [recording, Option.map_eq_some_iff]
  constructor
  · rintro ⟨next, hstep, rfl⟩
    exact ⟨hstep, rfl⟩
  · rintro ⟨hstep, hnote⟩
    exact ⟨after.1, hstep, Prod.ext rfl hnote.symm⟩

/-- A history only looks on: what the system reaches it reaches with some
history beside it, and the other way round. -/
theorem exec_recording_iff {state final : S} {history : H}
    {actions : List A} :
    (∃ last, exec (recording step note) (state, history) actions =
      some (final, last)) ↔ exec step state actions = some final := by
  induction actions generalizing state history with
  | nil =>
      constructor
      · rintro ⟨last, hexec⟩
        exact congrArg (Option.map Prod.fst) hexec
      · intro hexec
        exact ⟨history, by rw [Option.some.inj hexec, exec_nil]⟩
  | cons action rest ih =>
      constructor
      · rintro ⟨last, hexec⟩
        obtain ⟨next, hstep, hrest⟩ := exec_cons_eq_some.mp hexec
        exact exec_cons_eq_some.mpr
          ⟨next.1, (recording_eq_some.mp hstep).1, ih.mp ⟨last, hrest⟩⟩
      · intro hexec
        obtain ⟨next, hstep, hrest⟩ := exec_cons_eq_some.mp hexec
        obtain ⟨last, hlast⟩ := ih.mpr hrest
        exact ⟨last, exec_cons_eq_some.mpr
          ⟨_, recording_eq_some.mpr ⟨hstep, rfl⟩, hlast⟩⟩

end History

section Simulation

variable {T : Type*} {B : Type*}

/-- Every step of the one system is matched by an admitted run of the other
that ends in a related state. -/
def Simulates (step : S → A → Option S) (other : T → B → Option T)
    (ok : T → B → Prop) (R : S → T → Prop) : Prop :=
  ∀ state image action next, R state image →
    step state action = some next →
    ∃ actions final, exec other image actions = some final ∧
      Admitted other ok image actions ∧ R next final

/-- The simulation rule: what is matched step by step is matched run by
run. -/
theorem exec_of_simulates {other : T → B → Option T} {ok : T → B → Prop}
    {R : S → T → Prop} (hsim : Simulates step other ok R) {state final : S}
    {image : T} {actions : List A} (hrelated : R state image)
    (hexec : exec step state actions = some final) :
    ∃ matching last, exec other image matching = some last ∧
      Admitted other ok image matching ∧ R final last := by
  induction actions generalizing state image with
  | nil =>
      obtain rfl := Option.some.inj hexec
      exact ⟨[], image, rfl, trivial, hrelated⟩
  | cons action rest ih =>
      obtain ⟨next, hstep, hrest⟩ := exec_cons_eq_some.mp hexec
      obtain ⟨first, middle, hfirst, hadmitted, hmiddle⟩ :=
        hsim state image action next hrelated hstep
      obtain ⟨second, last, hsecond, hothers, hlast⟩ := ih hmiddle hrest
      exact ⟨first ++ second, last,
        exec_append_eq_some.mpr ⟨middle, hfirst, hsecond⟩,
        everyStep_append hfirst hadmitted hothers, hlast⟩

end Simulation

end Transition
