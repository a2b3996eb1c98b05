/-
One greedy pass over numbered entries: an entry that no earlier one has taken
may take a later entry for its partner.
-/
import Mathlib.Data.List.Basic
import Mathlib.Data.List.Nodup

namespace GreedyPairing

/-- The entries that are not taken, each with the entry it takes; `partner`
knows what was taken before. -/
def pass (partner : Nat → List Nat → Option Nat) :
    List Nat → List Nat → List (Nat × Option Nat)
  | _, [] => []
  | taken, index :: rest =>
      if index ∈ taken then pass partner taken rest
      else
        match partner index taken with
        | none => (index, none) :: pass partner taken rest
        | some other => (index, some other) ::
            pass partner (other :: taken) rest

/-- The entries that were taken. -/
def partners (entries : List (Nat × Option Nat)) : List Nat :=
  entries.filterMap Prod.snd

@[simp] theorem partners_cons_none (index : Nat)
    (entries : List (Nat × Option Nat)) :
    partners ((index, none) :: entries) = partners entries := rfl

@[simp] theorem partners_cons_some (index other : Nat)
    (entries : List (Nat × Option Nat)) :
    partners ((index, some other) :: entries) = other :: partners entries :=
  rfl

theorem mem_partners_iff {entries : List (Nat × Option Nat)} {other : Nat} :
    other ∈ partners entries ↔
      ∃ index, (index, some other) ∈ entries := by
  rw [partners, List.mem_filterMap]
  constructor
  · rintro ⟨⟨index, partner⟩, hmem, rfl⟩
    exact ⟨index, hmem⟩
  · rintro ⟨index, hmem⟩
    exact ⟨_, hmem, rfl⟩

/-- What is taken once has one taker. -/
theorem taker_unique {entries : List (Nat × Option Nat)}
    (hnodup : (partners entries).Nodup) {index same other : Nat}
    (hindex : (index, some other) ∈ entries)
    (hsame : (same, some other) ∈ entries) : index = same := by
  induction entries with
  | nil => cases hindex
  | cons entry rest ih =>
      have hrest : (partners rest).Nodup := by
        apply List.Nodup.sublist _ hnodup
        exact (List.sublist_cons_self entry rest).filterMap _
      have habsent : ∀ taker, (index, some other) = entry ∨
          (same, some other) = entry → (taker, some other) ∉ rest := by
        intro taker hentry hmem
        have hnodup' := hnodup
        rcases hentry with rfl | rfl <;>
          exact (List.nodup_cons.mp hnodup').1
            (mem_partners_iff.mpr ⟨taker, hmem⟩)
      rcases List.mem_cons.mp hindex with hhead | htail
      · rcases List.mem_cons.mp hsame with hhead' | htail'
        · exact congrArg Prod.fst (hhead.trans hhead'.symm)
        · exact absurd htail' (habsent same (.inl hhead))
      · rcases List.mem_cons.mp hsame with hhead' | htail'
        · exact absurd htail (habsent index (.inr hhead'))
        · exact ih hrest htail htail'

section

variable {partner : Nat → List Nat → Option Nat}

theorem pass_cons_taken {taken : List Nat} {index : Nat}
    (htaken : index ∈ taken) (rest : List Nat) :
    pass partner taken (index :: rest) = pass partner taken rest := by
  rw [pass, if_pos htaken]

theorem pass_cons_alone {taken : List Nat} {index : Nat}
    (hfree : index ∉ taken) (hnone : partner index taken = none)
    (rest : List Nat) :
    pass partner taken (index :: rest) =
      (index, none) :: pass partner taken rest := by
  rw [pass, if_neg hfree, hnone]

theorem pass_cons_paired {taken : List Nat} {index other : Nat}
    (hfree : index ∉ taken) (hsome : partner index taken = some other)
    (rest : List Nat) :
    pass partner taken (index :: rest) =
      (index, some other) :: pass partner (other :: taken) rest := by
  rw [pass, if_neg hfree, hsome]

/-- The induction of a pass: the head is skipped, stays alone or takes a
partner. -/
theorem pass_induction
    {motive : List Nat → List Nat → List (Nat × Option Nat) → Prop}
    (nil : ∀ taken, motive taken [] [])
    (skipped : ∀ taken index rest, index ∈ taken →
      motive taken rest (pass partner taken rest) →
      motive taken (index :: rest) (pass partner taken rest))
    (alone : ∀ taken index rest, index ∉ taken →
      partner index taken = none →
      motive taken rest (pass partner taken rest) →
      motive taken (index :: rest) ((index, none) ::
        pass partner taken rest))
    (paired : ∀ taken index other rest, index ∉ taken →
      partner index taken = some other →
      motive (other :: taken) rest (pass partner (other :: taken) rest) →
      motive taken (index :: rest) ((index, some other) ::
        pass partner (other :: taken) rest))
    (taken indexes : List Nat) :
    motive taken indexes (pass partner taken indexes) := by
  induction indexes generalizing taken with
  | nil => exact nil taken
  | cons index rest ih =>
      by_cases htaken : index ∈ taken
      · rw [pass_cons_taken htaken]
        exact skipped taken index rest htaken (ih taken)
      · cases hpartner : partner index taken with
        | none =>
            rw [pass_cons_alone htaken hpartner]
            exact alone taken index rest htaken hpartner (ih taken)
        | some other =>
            rw [pass_cons_paired htaken hpartner]
            exact paired taken index other rest htaken hpartner
              (ih (other :: taken))

/-- What an entry takes comes later and was free. -/
def TakesLater (partner : Nat → List Nat → Option Nat) : Prop :=
  ∀ index taken other, partner index taken = some other →
    index < other ∧ other ∉ taken

/-- Every entry shown is one of those passed, not taken before, with what
`partner` gave for it. -/
theorem of_mem_pass {taken indexes : List Nat} {entry : Nat × Option Nat} :
    entry ∈ pass partner taken indexes →
      entry.1 ∈ indexes ∧ entry.1 ∉ taken ∧
        ∃ before, partner entry.1 before = entry.2 := by
  refine pass_induction (motive := fun taken indexes entries =>
    entry ∈ entries → entry.1 ∈ indexes ∧ entry.1 ∉ taken ∧
      ∃ before, partner entry.1 before = entry.2) ?_ ?_ ?_ ?_ taken indexes
  · intro _ hmem
    cases hmem
  · intro taken index rest _ ih hmem
    obtain ⟨hrest, hothers⟩ := ih hmem
    exact ⟨List.mem_cons_of_mem _ hrest, hothers⟩
  · intro taken index rest hfree hnone ih hmem
    rcases List.mem_cons.mp hmem with rfl | hrest
    · exact ⟨List.mem_cons_self, hfree, taken, hnone⟩
    · exact ⟨List.mem_cons_of_mem _ (ih hrest).1, (ih hrest).2⟩
  · intro taken index other rest hfree hsome ih hmem
    rcases List.mem_cons.mp hmem with rfl | hrest
    · exact ⟨List.mem_cons_self, hfree, taken, hsome⟩
    · obtain ⟨hindex, hnot, hbefore⟩ := ih hrest
      exact ⟨List.mem_cons_of_mem _ hindex,
        fun htaken => hnot (List.mem_cons_of_mem _ htaken), hbefore⟩

/-- No entry is taken twice. -/
theorem nodup_partners (hlater : TakesLater partner)
    (taken indexes : List Nat) :
    (partners (pass partner taken indexes)).Nodup ∧
      ∀ other ∈ partners (pass partner taken indexes), other ∉ taken := by
  refine pass_induction (motive := fun taken indexes entries =>
    (partners entries).Nodup ∧ ∀ other ∈ partners entries, other ∉ taken)
    ?_ ?_ ?_ ?_ taken indexes
  · intro taken
    exact ⟨List.nodup_nil, by simp [partners]⟩
  · intro taken index rest _ ih
    exact ih
  · intro taken index rest _ _ ih
    exact ih
  · intro taken index other rest _ hsome ih
    obtain ⟨hnodup, hfree⟩ := ih
    refine ⟨List.nodup_cons.mpr ⟨?_, hnodup⟩, ?_⟩
    · exact fun hmem => hfree other hmem List.mem_cons_self
    · intro taker hmem
      rcases List.mem_cons.mp hmem with rfl | hrest
      · exact (hlater index taken _ hsome).2
      · exact fun htaken => hfree taker hrest (List.mem_cons_of_mem _ htaken)

/-- The entries shown are those no entry takes, in their order. -/
theorem map_fst_pass (hlater : TakesLater partner) (taken : List Nat)
    {indexes : List Nat} (hsorted : indexes.Pairwise (· < ·)) :
    (pass partner taken indexes).map Prod.fst =
      indexes.filter fun index => decide (index ∉ taken) &&
        decide (index ∉ partners (pass partner taken indexes)) := by
  induction indexes generalizing taken with
  | nil => rfl
  | cons index rest ih =>
      obtain ⟨hhead, htail⟩ := List.pairwise_cons.mp hsorted
      have hahead : ∀ before, index ∉ partners (pass partner before rest) := by
        intro before hmem
        obtain ⟨taker, hentry⟩ := mem_partners_iff.mp hmem
        obtain ⟨hrest, -, others, hsome⟩ := of_mem_pass hentry
        have htaker := hhead taker hrest
        have hother := (hlater _ _ _ hsome).1
        exact Nat.lt_asymm htaker hother
      by_cases htaken : index ∈ taken
      · rw [pass_cons_taken htaken, ih taken htail,
          List.filter_cons_of_neg (by simp [htaken])]
      · cases hpartner : partner index taken with
        | none =>
            rw [pass_cons_alone htaken hpartner, List.map_cons,
              ih taken htail, partners_cons_none, List.filter_cons_of_pos]
            simp [htaken, hahead taken]
        | some other =>
            rw [pass_cons_paired htaken hpartner, List.map_cons,
              ih (other :: taken) htail, partners_cons_some,
              List.filter_cons_of_pos]
            · congr 1
              apply List.filter_congr
              intro later _
              by_cases hsame : later = other <;> simp [hsame]
            · have hne := Nat.ne_of_lt (hlater _ _ _ hpartner).1
              simp [htaken, hne, hahead (other :: taken)]

theorem map_fst_pass_range (hlater : TakesLater partner) (n : Nat) :
    (pass partner [] (List.range n)).map Prod.fst =
      (List.range n).filter fun index =>
        index ∉ partners (pass partner [] (List.range n)) := by
  have horder := map_fst_pass hlater [] (List.pairwise_lt_range (n := n))
  simpa only [List.not_mem_nil, not_false_eq_true, decide_true,
    Bool.true_and] using horder

/-- Where no entry competes for another's mate, everyone shown has its own:
`partner` need only give it while the mates of earlier entries are taken. -/
theorem eq_mate_of_mem_pass {mate : Nat → Option Nat}
    (hmate : ∀ index before,
      (∀ other ∈ before, ∃ earlier, earlier < index ∧
        mate earlier = some other) →
      partner index before = mate index)
    {taken indexes : List Nat} (hsorted : indexes.Pairwise (· < ·))
    (htaken : ∀ other ∈ taken, ∃ earlier,
      (∀ index ∈ indexes, earlier < index) ∧ mate earlier = some other) :
    ∀ entry ∈ pass partner taken indexes, entry.2 = mate entry.1 := by
  induction indexes generalizing taken with
  | nil =>
      intro entry hmem
      cases hmem
  | cons index rest ih =>
      obtain ⟨hhead, htail⟩ := List.pairwise_cons.mp hsorted
      have hrest : ∀ other ∈ taken, ∃ earlier,
          (∀ index ∈ rest, earlier < index) ∧ mate earlier = some other := by
        intro other hother
        obtain ⟨earlier, hbefore, hsome⟩ := htaken other hother
        exact ⟨earlier, fun later hlater =>
          hbefore later (List.mem_cons_of_mem _ hlater), hsome⟩
      have hown : partner index taken = mate index := by
        apply hmate
        intro other hother
        obtain ⟨earlier, hbefore, hsome⟩ := htaken other hother
        exact ⟨earlier, hbefore index List.mem_cons_self, hsome⟩
      by_cases hskipped : index ∈ taken
      · rw [pass_cons_taken hskipped]
        exact ih htail hrest
      · cases hpartner : partner index taken with
        | none =>
            rw [pass_cons_alone hskipped hpartner]
            intro entry hmem
            rcases List.mem_cons.mp hmem with rfl | hothers
            · exact hpartner.symm.trans hown
            · exact ih htail hrest entry hothers
        | some other =>
            rw [pass_cons_paired hskipped hpartner]
            intro entry hmem
            rcases List.mem_cons.mp hmem with rfl | hothers
            · exact hpartner.symm.trans hown
            · refine ih htail ?_ entry hothers
              intro taker htaker
              rcases List.mem_cons.mp htaker with rfl | hbefore
              · exact ⟨index, hhead, hown.symm.trans hpartner⟩
              · exact hrest taker hbefore

end

end GreedyPairing
