/-
One time initialisation in stages by any number of threads.  Each stage has a
flag and a lock: a thread that finds the flag unset takes the lock, looks
again, carries the stage out, sets the flag and lets go.  A thread that is
through all stages may use the shared state.
-/
import Mathlib.Logic.Function.Basic
import Mathlib.Data.List.Range
import Beetkeeper.Transition

namespace StagedInit

universe u v w

/-- Where a thread stands; `i` is the stage it is in. -/
inductive Place where
  | idle
  /-- about to read the flag, without the lock -/
  | looking (i : Nat)
  | waiting (i : Nat)
  /-- has the lock and is about to read the flag again -/
  | holding (i : Nat)
  | acting (i : Nat)
  /-- carried the stage out; the flag is not set yet -/
  | marking (i : Nat)
  | leaving (i : Nat)
  | ready
deriving Repr, DecidableEq

namespace Place

/-- The stage whose lock the thread has. -/
def held? : Place → Option Nat
  | .holding i => some i
  | .acting i => some i
  | .marking i => some i
  | .leaving i => some i
  | _ => none

/-- The number of stages the thread has seen done, of `count` altogether. -/
def passed (count : Nat) : Place → Nat
  | .idle => 0
  | .looking i => i
  | .waiting i => i
  | .holding i => i
  | .acting i => i
  | .marking i => i
  | .leaving i => i + 1
  | .ready => count

end Place

/-- What each stage does, and what a use of the initialised state does. -/
structure Setup (S : Type v) (U : Type w) where
  stages : List (S → S)
  use : U → S → S

/-- `performed` and `uses` are history only. -/
structure State (T : Type u) (S : Type v) (U : Type w) where
  flags : Nat → Bool
  locks : Nat → Option T
  places : T → Place
  shared : S
  performed : List Nat
  uses : List U

inductive Action (T : Type u) (U : Type w) where
  | start (thread : T)
  | look (thread : T)
  | acquire (thread : T)
  | lookAgain (thread : T)
  | perform (thread : T)
  /-- the stage raises without effect, which also frees the lock -/
  | raises (thread : T)
  | mark (thread : T)
  | release (thread : T)
  | use (thread : T) (what : U)
  | finish (thread : T)
deriving Repr, DecidableEq

/-- The use a step makes of the initialised state. -/
def Action.used? {T : Type u} {U : Type w} : Action T U → Option U
  | .use _ what => some what
  | _ => none

variable {T : Type u} {S : Type v} {U : Type w}

def State.initial (shared : S) : State T S U where
  flags := fun _ => false
  locks := fun _ => none
  places := fun _ => .idle
  shared := shared
  performed := []
  uses := []

namespace Setup

/-- The state after some uses of what the stages, in order, made of it. -/
def after (setup : Setup S U) (stages : List (S → S)) (uses : List U)
    (shared : S) : S :=
  uses.foldl (fun s what => setup.use what s)
    (stages.foldl (fun s stage => stage s) shared)

/-- Where a thread goes that has seen the first `i` stages done. -/
def enter (setup : Setup S U) (i : Nat) : Place :=
  if i < setup.stages.length then .looking i else .ready

variable [DecidableEq T]

def step (setup : Setup S U) (state : State T S U) :
    Action T U → Option (State T S U)
  | .start t =>
      match state.places t with
      | .idle => some { state with
          places := Function.update state.places t (setup.enter 0) }
      | _ => none
  | .look t =>
      match state.places t with
      | .looking i => some { state with
          places := Function.update state.places t
            (if state.flags i then setup.enter (i + 1) else .waiting i) }
      | _ => none
  | .acquire t =>
      match state.places t with
      | .waiting i =>
          if state.locks i = none then
            some { state with
              places := Function.update state.places t (.holding i)
              locks := Function.update state.locks i (some t) }
          else none
      | _ => none
  | .lookAgain t =>
      match state.places t with
      | .holding i => some { state with
          places := Function.update state.places t
            (if state.flags i then .leaving i else .acting i) }
      | _ => none
  | .perform t =>
      match state.places t with
      | .acting i =>
          setup.stages[i]?.map fun stage =>
            { state with
              places := Function.update state.places t (.marking i)
              shared := stage state.shared
              performed := state.performed ++ [i] }
      | _ => none
  | .raises t =>
      match state.places t with
      | .acting i => some { state with
          places := Function.update state.places t .idle
          locks := Function.update state.locks i none }
      | _ => none
  | .mark t =>
      match state.places t with
      | .marking i => some { state with
          places := Function.update state.places t (.leaving i)
          flags := Function.update state.flags i true }
      | _ => none
  | .release t =>
      match state.places t with
      | .leaving i => some { state with
          places := Function.update state.places t (setup.enter (i + 1))
          locks := Function.update state.locks i none }
      | _ => none
  | .use t what =>
      match state.places t with
      | .ready => some { state with
          shared := setup.use what state.shared
          uses := state.uses ++ [what] }
      | _ => none
  | .finish t =>
      match state.places t with
      | .ready => some { state with
          places := Function.update state.places t .idle }
      | _ => none

end Setup

/-- What one step can do, and the use it makes of the shared state. -/
inductive Step [DecidableEq T] (setup : Setup S U) (state : State T S U) :
    Option U → State T S U → Prop
  | walk {t : T} (next : Place)
      (hheld : next.held? = (state.places t).held?)
      (hpassed : ∀ i < next.passed setup.stages.length,
        i < (state.places t).passed setup.stages.length ∨
          state.flags i = true)
      (hquiet : ∀ i, next = .acting i → state.flags i = false)
      (hmarking : ∀ i, next ≠ .marking i)
      (hplace : ∀ i, state.places t ≠ .marking i) :
      Step setup state none
        { state with places := Function.update state.places t next }
  | acquire {t : T} {i : Nat} (hplace : state.places t = .waiting i)
      (hfree : state.locks i = none) :
      Step setup state none
        { state with
          places := Function.update state.places t (.holding i)
          locks := Function.update state.locks i (some t) }
  | perform {t : T} {i : Nat} {stage : S → S}
      (hplace : state.places t = .acting i)
      (hstage : setup.stages[i]? = some stage) :
      Step setup state none
        { state with
          places := Function.update state.places t (.marking i)
          shared := stage state.shared
          performed := state.performed ++ [i] }
  | mark {t : T} {i : Nat} (hplace : state.places t = .marking i) :
      Step setup state none
        { state with
          places := Function.update state.places t (.leaving i)
          flags := Function.update state.flags i true }
  | free {t : T} {i : Nat} (next : Place)
      (hheld : (state.places t).held? = some i)
      (hplace : state.places t ≠ .marking i)
      (hnext : next.held? = none)
      (hpassed : ∀ j < next.passed setup.stages.length,
        j < (state.places t).passed setup.stages.length ∨
          state.flags j = true) :
      Step setup state none
        { state with
          places := Function.update state.places t next
          locks := Function.update state.locks i none }
  | use {t : T} (what : U) (hplace : state.places t = .ready) :
      Step setup state (some what)
        { state with
          shared := setup.use what state.shared
          uses := state.uses ++ [what] }

namespace Setup

variable {setup : Setup S U} {state after : State T S U}

@[simp] theorem enter_held? (i : Nat) : (setup.enter i).held? = none := by
  unfold enter
  split <;> rfl

theorem enter_ne_acting (i j : Nat) : setup.enter i ≠ .acting j := by
  unfold enter
  split <;> simp

theorem enter_ne_marking (i j : Nat) : setup.enter i ≠ .marking j := by
  unfold enter
  split <;> simp

theorem lt_of_lt_passed_enter {i j : Nat}
    (hlt : j < (setup.enter i).passed setup.stages.length) : j < i := by
  unfold enter at hlt
  split at hlt
  · exact hlt
  · rename_i hdone
    exact Nat.lt_of_lt_of_le hlt (Nat.le_of_not_lt hdone)

variable [DecidableEq T]

theorem step_cases {action : Action T U}
    (hstep : setup.step state action = some after) :
    Step setup state action.used? after := by
  cases action with
  | start t =>
      simp only [step] at hstep
      split at hstep <;> cases hstep
      rename_i hplace
      refine .walk _ (by rw [enter_held?, hplace]; rfl)
        (fun j hj => absurd (lt_of_lt_passed_enter hj) (Nat.not_lt_zero j))
        (fun j hj => absurd hj (enter_ne_acting 0 j))
        (enter_ne_marking 0) (by simp [hplace])
  | look t =>
      simp only [step] at hstep
      split at hstep <;> cases hstep
      rename_i i hplace
      by_cases hflag : state.flags i = true
      · rw [if_pos hflag]
        refine .walk _ (by rw [enter_held?, hplace]; rfl) ?_
          (fun j hj => absurd hj (enter_ne_acting _ j))
          (enter_ne_marking _) (by simp [hplace])
        intro j hj
        rw [hplace]
        rcases Nat.lt_succ_iff_lt_or_eq.mp (lt_of_lt_passed_enter hj) with
          hlt | rfl
        · exact Or.inl hlt
        · exact Or.inr hflag
      · rw [if_neg hflag]
        refine .walk _ (by simp [hplace, Place.held?])
          (fun j hj => Or.inl (hplace ▸ hj)) (by simp) (by simp)
          (by simp [hplace])
  | acquire t =>
      simp only [step] at hstep
      split at hstep
      · rename_i i hplace
        split at hstep <;> cases hstep
        rename_i hfree
        exact .acquire hplace hfree
      · cases hstep
  | lookAgain t =>
      simp only [step] at hstep
      split at hstep <;> cases hstep
      rename_i i hplace
      by_cases hflag : state.flags i = true
      · rw [if_pos hflag]
        refine .walk _ (by simp [hplace, Place.held?]) ?_ (by simp) (by simp)
          (by simp [hplace])
        intro j hj
        rw [hplace]
        rcases Nat.lt_succ_iff_lt_or_eq.mp hj with hlt | rfl
        · exact Or.inl hlt
        · exact Or.inr hflag
      · rw [if_neg hflag]
        refine .walk _ (by simp [hplace, Place.held?])
          (fun j hj => Or.inl (hplace ▸ hj)) ?_ (by simp) (by simp [hplace])
        rintro j hj
        obtain rfl := Place.acting.inj hj
        exact Bool.not_eq_true _ ▸ hflag
  | perform t =>
      simp only [step] at hstep
      split at hstep
      · rename_i i hplace
        obtain ⟨stage, hstage, rfl⟩ := Option.map_eq_some_iff.mp hstep
        exact .perform hplace hstage
      · cases hstep
  | raises t =>
      simp only [step] at hstep
      split at hstep <;> cases hstep
      rename_i i hplace
      exact .free _ (by simp [hplace, Place.held?]) (by simp [hplace]) rfl
        (fun j hj => absurd hj (Nat.not_lt_zero j))
  | mark t =>
      simp only [step] at hstep
      split at hstep <;> cases hstep
      rename_i i hplace
      exact .mark hplace
  | release t =>
      simp only [step] at hstep
      split at hstep <;> cases hstep
      rename_i i hplace
      refine .free _ (by simp [hplace, Place.held?]) (by simp [hplace])
        (enter_held? _) ?_
      intro j hj
      rw [hplace]
      exact Or.inl (lt_of_lt_passed_enter hj)
  | use t what =>
      simp only [step] at hstep
      split at hstep <;> cases hstep
      rename_i hplace
      exact .use what hplace
  | finish t =>
      simp only [step] at hstep
      split at hstep <;> cases hstep
      rename_i hplace
      exact .walk _ (by simp [hplace, Place.held?])
        (fun j hj => absurd hj (Nat.not_lt_zero j)) (by simp) (by simp)
        (by simp [hplace])

end Setup

/-- The invariant: the stages were performed once each and in order, and only
then was the state used. -/
structure State.Consistent (setup : Setup S U) (start : S)
    (state : State T S U) : Prop where
  ordered : state.performed = List.range state.performed.length
  within : state.performed.length ≤ setup.stages.length
  flagged : ∀ i, state.flags i = true → i < state.performed.length
  marked : ∀ i < state.performed.length,
    state.flags i = true ∨ ∃ t, state.places t = .marking i
  held : ∀ t i, (state.places t).held? = some i → state.locks i = some t
  passed : ∀ t, ∀ i < (state.places t).passed setup.stages.length,
    state.flags i = true
  unset : ∀ t i, state.places t = .acting i → state.flags i = false
  performing : ∀ t i, state.places t = .marking i →
    i < state.performed.length
  shared : state.shared = setup.after
    (setup.stages.take state.performed.length) state.uses start
  unused : state.performed.length < setup.stages.length → state.uses = []

variable {setup : Setup S U} {start : S} {state next : State T S U}
  {used : Option U}

theorem consistent_initial (setup : Setup S U) (start : S) :
    (State.initial start : State T S U).Consistent setup start where
  ordered := rfl
  within := Nat.zero_le _
  flagged _ hflag := by cases hflag
  marked _ hlt := absurd hlt (Nat.not_lt_zero _)
  held _ _ hheld := by cases hheld
  passed _ _ hlt := absurd hlt (Nat.not_lt_zero _)
  unset _ _ hplace := by cases hplace
  performing _ _ hplace := by cases hplace
  shared := rfl
  unused _ := rfl

namespace State.Consistent

/-- A lock is held by one thread at a time. -/
theorem exclusive (hstate : state.Consistent setup start) {t u : T} {i : Nat}
    (ht : (state.places t).held? = some i)
    (hu : (state.places u).held? = some i) : t = u :=
  Option.some.inj ((hstate.held t i ht).symm.trans (hstate.held u i hu))

/-- The thread about to act finds exactly the earlier stages done. -/
theorem length_of_acting (hstate : state.Consistent setup start) {t : T}
    {i : Nat} (hplace : state.places t = .acting i) :
    state.performed.length = i := by
  have hearlier : ∀ j < i, j < state.performed.length := fun j hj =>
    hstate.flagged j (hstate.passed t j (by rw [hplace]; exact hj))
  rcases Nat.lt_trichotomy state.performed.length i with hlt | heq | hgt
  · exact absurd (hearlier _ hlt) (Nat.lt_irrefl _)
  · exact heq
  · rcases hstate.marked i hgt with hflag | ⟨u, hu⟩
    · rw [hstate.unset t i hplace] at hflag
      cases hflag
    · obtain rfl := hstate.exclusive (i := i) (by rw [hplace]; rfl)
        (by rw [hu]; rfl)
      rw [hplace] at hu
      cases hu

/-- A thread that is through finds every stage done. -/
theorem length_of_ready (hstate : state.Consistent setup start) {t : T}
    (hplace : state.places t = .ready) :
    state.performed.length = setup.stages.length := by
  refine Nat.le_antisymm hstate.within (Nat.le_of_not_lt fun hlt => ?_)
  have hflag := hstate.passed t state.performed.length
    (by rw [hplace]; exact hlt)
  exact Nat.lt_irrefl _ (hstate.flagged _ hflag)

end State.Consistent

section Update

variable [DecidableEq T]

/-- A thread that is not at the place written stands where it stood. -/
theorem update_cases {places : T → Place} {t u : T} {place : Place}
    {P : Place → Prop} (hP : P (Function.update places t place u)) :
    (u = t ∧ P place) ∨ (u ≠ t ∧ P (places u)) := by
  by_cases hut : u = t
  · subst hut
    exact Or.inl ⟨rfl, by rwa [Function.update_self] at hP⟩
  · exact Or.inr ⟨hut, by rwa [Function.update_of_ne hut] at hP⟩

theorem marking_update {places : T → Place} {t : T} {place : Place} {i : Nat}
    (hplace : places t ≠ .marking i)
    (hmarking : ∃ u, places u = .marking i) :
    ∃ u, Function.update places t place u = .marking i := by
  obtain ⟨u, hu⟩ := hmarking
  have hut : u ≠ t := fun heq => hplace (heq ▸ hu)
  exact ⟨u, by rw [Function.update_of_ne hut, hu]⟩

theorem flag_update {flags : Nat → Bool} {i j : Nat}
    (hflag : flags j = true) : Function.update flags i true j = true := by
  by_cases hji : j = i
  · subst hji
    exact Function.update_self ..
  · rw [Function.update_of_ne hji, hflag]

end Update

namespace State.Consistent

variable [DecidableEq T]

theorem step (hstate : state.Consistent setup start)
    (hstep : Step setup state used next) : next.Consistent setup start := by
  cases hstep with
  | @walk t place hheld hpassed hquiet hmarking hplace =>
      refine { hstate with
        marked := ?_, held := ?_, passed := ?_, unset := ?_,
        performing := ?_ }
      · intro i hi
        exact (hstate.marked i hi).imp id (marking_update (hplace i))
      · intro u i hu
        rcases update_cases (P := fun p => p.held? = some i) hu with
          ⟨rfl, hnew⟩ | ⟨_, hold⟩
        · exact hstate.held u i (hheld ▸ hnew)
        · exact hstate.held u i hold
      · intro u i hu
        rcases update_cases
            (P := fun p => i < p.passed setup.stages.length) hu with
          ⟨rfl, hnew⟩ | ⟨_, hold⟩
        · exact (hpassed i hnew).elim (hstate.passed u i) id
        · exact hstate.passed u i hold
      · intro u i hu
        rcases update_cases (P := fun p => p = .acting i) hu with
          ⟨rfl, hnew⟩ | ⟨_, hold⟩
        · exact hquiet i hnew
        · exact hstate.unset u i hold
      · intro u i hu
        rcases update_cases (P := fun p => p = .marking i) hu with
          ⟨rfl, hnew⟩ | ⟨_, hold⟩
        · exact absurd hnew (hmarking i)
        · exact hstate.performing u i hold
  | @acquire t i hplace hfree =>
      refine { hstate with
        marked := ?_, held := ?_, passed := ?_, unset := ?_,
        performing := ?_ }
      · intro j hj
        exact (hstate.marked j hj).imp id
          (marking_update (by rw [hplace]; simp))
      · intro u j hu
        rcases update_cases (P := fun p => p.held? = some j) hu with
          ⟨rfl, hnew⟩ | ⟨_, hold⟩
        · obtain rfl := Option.some.inj hnew
          exact Function.update_self ..
        · have hlock := hstate.held u j hold
          have hji : j ≠ i := by
            rintro rfl
            rw [hfree] at hlock
            cases hlock
          rw [← hlock]
          exact Function.update_of_ne hji ..
      · intro u j hu
        rcases update_cases
            (P := fun p => j < p.passed setup.stages.length) hu with
          ⟨rfl, hnew⟩ | ⟨_, hold⟩
        · exact hstate.passed u j (by rw [hplace]; exact hnew)
        · exact hstate.passed u j hold
      · intro u j hu
        rcases update_cases (P := fun p => p = .acting j) hu with
          ⟨_, hnew⟩ | ⟨_, hold⟩
        · cases hnew
        · exact hstate.unset u j hold
      · intro u j hu
        rcases update_cases (P := fun p => p = .marking j) hu with
          ⟨_, hnew⟩ | ⟨_, hold⟩
        · cases hnew
        · exact hstate.performing u j hold
  | @perform t i stage hplace hstage =>
      have hlength := hstate.length_of_acting hplace
      obtain ⟨hin, hget⟩ := List.getElem?_eq_some_iff.mp hstage
      have huses := hstate.unused (hlength ▸ hin)
      refine ⟨?_, ?_, ?_, ?_, ?_, ?_, ?_, ?_, ?_, ?_⟩
      · rw [List.length_append, List.length_singleton, List.range_succ,
          ← hstate.ordered, hlength]
      · rw [List.length_append, List.length_singleton, hlength]
        exact hin
      · intro j hflag
        rw [List.length_append, List.length_singleton]
        exact Nat.lt_succ_of_lt (hstate.flagged j hflag)
      · intro j hj
        rw [List.length_append, List.length_singleton] at hj
        rcases Nat.lt_succ_iff_lt_or_eq.mp hj with hlt | heq
        · exact (hstate.marked j hlt).imp id
            (marking_update (by rw [hplace]; simp))
        · rw [heq, hlength]
          exact Or.inr ⟨t, Function.update_self ..⟩
      · intro u j hu
        rcases update_cases (P := fun p => p.held? = some j) hu with
          ⟨rfl, hnew⟩ | ⟨_, hold⟩
        · exact hstate.held u j (by rw [hplace]; exact hnew)
        · exact hstate.held u j hold
      · intro u j hu
        rcases update_cases
            (P := fun p => j < p.passed setup.stages.length) hu with
          ⟨rfl, hnew⟩ | ⟨_, hold⟩
        · exact hstate.passed u j (by rw [hplace]; exact hnew)
        · exact hstate.passed u j hold
      · intro u j hu
        rcases update_cases (P := fun p => p = .acting j) hu with
          ⟨_, hnew⟩ | ⟨_, hold⟩
        · cases hnew
        · exact hstate.unset u j hold
      · intro u j hu
        rw [List.length_append, List.length_singleton]
        rcases update_cases (P := fun p => p = .marking j) hu with
          ⟨_, hnew⟩ | ⟨_, hold⟩
        · obtain rfl := Place.marking.inj hnew
          exact Nat.lt_succ_of_le (Nat.le_of_eq hlength.symm)
        · exact Nat.lt_succ_of_lt (hstate.performing u j hold)
      · have hshared := hstate.shared
        rw [huses, hlength] at hshared
        simp only [List.length_append, List.length_singleton, hlength, huses,
          Setup.after, List.foldl_nil] at hshared ⊢
        rw [hshared, List.take_add_one, hstage, List.foldl_append]
        rfl
      · exact fun _ => huses
  | @mark t i hplace =>
      have hown := hstate.performing t i hplace
      refine { hstate with
        flagged := ?_, marked := ?_, held := ?_, passed := ?_, unset := ?_,
        performing := ?_ }
      · intro j hflag
        by_cases hji : j = i
        · exact hji ▸ hown
        · have hold : Function.update state.flags i true j = true := hflag
          rw [Function.update_of_ne hji] at hold
          exact hstate.flagged j hold
      · intro j hj
        by_cases hji : j = i
        · subst hji
          exact Or.inl (Function.update_self ..)
        · refine (hstate.marked j hj).imp flag_update (marking_update ?_)
          rw [hplace]
          exact fun heq => hji (Place.marking.inj heq).symm
      · intro u j hu
        rcases update_cases (P := fun p => p.held? = some j) hu with
          ⟨rfl, hnew⟩ | ⟨_, hold⟩
        · exact hstate.held u j (by rw [hplace]; exact hnew)
        · exact hstate.held u j hold
      · intro u j hu
        rcases update_cases
            (P := fun p => j < p.passed setup.stages.length) hu with
          ⟨rfl, hnew⟩ | ⟨_, hold⟩
        · rcases Nat.lt_succ_iff_lt_or_eq.mp hnew with hlt | rfl
          · exact flag_update (hstate.passed u j (by rw [hplace]; exact hlt))
          · exact Function.update_self ..
        · exact flag_update (hstate.passed u j hold)
      · intro u j hu
        rcases update_cases (P := fun p => p = .acting j) hu with
          ⟨_, hnew⟩ | ⟨hut, hold⟩
        · cases hnew
        · have hji : j ≠ i := by
            rintro rfl
            exact hut (hstate.exclusive (i := j) (by rw [hold]; rfl)
              (by rw [hplace]; rfl))
          rw [← hstate.unset u j hold]
          exact Function.update_of_ne hji ..
      · intro u j hu
        rcases update_cases (P := fun p => p = .marking j) hu with
          ⟨_, hnew⟩ | ⟨_, hold⟩
        · cases hnew
        · exact hstate.performing u j hold
  | @free t i place hheld hplace hnext hpassed =>
      have hnone : ∀ j, place.held? ≠ some j := by
        rw [hnext]
        simp
      refine { hstate with
        marked := ?_, held := ?_, passed := ?_, unset := ?_,
        performing := ?_ }
      · intro j hj
        refine (hstate.marked j hj).imp id (marking_update fun hmarking => ?_)
        rw [hmarking] at hheld
        obtain rfl := Option.some.inj hheld
        exact hplace hmarking
      · intro u j hu
        rcases update_cases (P := fun p => p.held? = some j) hu with
          ⟨_, hnew⟩ | ⟨hut, hold⟩
        · exact absurd hnew (hnone j)
        · have hji : j ≠ i := by
            rintro rfl
            exact hut (hstate.exclusive hold hheld)
          rw [← hstate.held u j hold]
          exact Function.update_of_ne hji ..
      · intro u j hu
        rcases update_cases
            (P := fun p => j < p.passed setup.stages.length) hu with
          ⟨rfl, hnew⟩ | ⟨_, hold⟩
        · exact (hpassed j hnew).elim (hstate.passed u j) id
        · exact hstate.passed u j hold
      · intro u j hu
        rcases update_cases (P := fun p => p = .acting j) hu with
          ⟨_, hnew⟩ | ⟨_, hold⟩
        · exact absurd (hnew ▸ rfl) (hnone j)
        · exact hstate.unset u j hold
      · intro u j hu
        rcases update_cases (P := fun p => p = .marking j) hu with
          ⟨_, hnew⟩ | ⟨_, hold⟩
        · exact absurd (hnew ▸ rfl) (hnone j)
        · exact hstate.performing u j hold
  | @use t what hplace =>
      have hlength := hstate.length_of_ready hplace
      refine { hstate with shared := ?_, unused := ?_ }
      · have hshared := hstate.shared
        simp only [Setup.after, List.foldl_append, List.foldl_cons,
          List.foldl_nil] at hshared ⊢
        rw [hshared]
      · exact fun hlt => absurd hlt (hlength ▸ Nat.lt_irrefl _)

end State.Consistent

variable [DecidableEq T]

/-- The initialisation rule: in every run the stages are performed once each
and in order, and the shared state is what they and then the uses, in order,
make of the state the run started from. -/
theorem consistent_of_exec {actions : List (Action T U)}
    (hexec : Transition.exec setup.step (State.initial start) actions =
      some state) : state.Consistent setup start :=
  Transition.invariant_of_exec
    (fun _ _ _ hbefore hstep => hbefore.step (Setup.step_cases hstep))
    (consistent_initial setup start) hexec

theorem Step.uses (hstep : Step setup state used next) :
    next.uses = state.uses ++ used.toList := by
  cases hstep with
  | use what hplace => rfl
  | _ => exact (List.append_nil _).symm

/-- The recorded uses are those of the run. -/
theorem uses_of_exec {before after : State T S U} {actions : List (Action T U)}
    (hexec : Transition.exec setup.step before actions = some after) :
    after.uses = before.uses ++ actions.filterMap Action.used? := by
  induction actions generalizing before with
  | nil =>
      obtain rfl := Option.some.inj hexec
      exact (List.append_nil _).symm
  | cons action rest ih =>
      obtain ⟨middle, hstep, hrest⟩ := Transition.exec_cons_eq_some.mp hexec
      rw [ih hrest, (Setup.step_cases hstep).uses, List.append_assoc]
      cases hused : action.used? <;> simp [hused]

end StagedInit
