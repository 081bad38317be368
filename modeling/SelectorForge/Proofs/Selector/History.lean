import SelectorForge.Selector.Fragment

/-!
# The history of a selector

A selector decides about a fragment by its latest stage and by the places that are taken. Here both
are read off the fragments that it holds:

* `Compound.fragments`    the fragments of a selector, stage by stage;
* `Compound.Consistent`   the latest stage is the stage of the last fragment;
* `Passed`, `Taken`       what a list of fragments says about the place of a further one.

Placing a fragment that is not rejected keeps a selector consistent and puts the fragment at the
end of the others (`Compound.append_consistent`).
-/

namespace SelectorForge

/-! ### the order of the stages -/

namespace Stage

theorem lt_irrefl (a : Stage) : ¬ a < a := Nat.lt_irrefl a.ordinal

theorem le_refl (a : Stage) : a ≤ a := Nat.le_refl a.ordinal

theorem not_lt {a b : Stage} : ¬ a < b ↔ b ≤ a := by
  rw [lt_iff, le_iff]
  omega

theorem le_of_lt {a b : Stage} (h : a < b) : a ≤ b := by
  rw [lt_iff] at h
  rw [le_iff]
  omega

theorem lt_of_lt_of_le {a b c : Stage} (h : a < b) (h' : b ≤ c) : a < c := by
  rw [lt_iff] at h ⊢
  rw [le_iff] at h'
  omega

theorem lt_or_eq_of_le {a b : Stage} (h : a ≤ b) : a < b ∨ a = b := by
  rw [le_iff] at h
  rcases Nat.lt_or_eq_of_le h with h | h
  · exact Or.inl h
  · exact Or.inr (ordinal_injective h)

theorem pairwise_all : all.Pairwise (· < ·) := by decide

end Stage

/-! ### what a list of fragments says about a place -/

/-- A fragment of a later stage has been accepted. -/
def Passed (held : List Fragment) (target : Stage) : Prop := ∃ f ∈ held, target < f.stage

/-- The only place of the stage has been taken. -/
def Taken (held : List Fragment) (target : Stage) : Prop :=
  target.isSingleton = true ∧ ∃ f ∈ held, f.stage = target

namespace Compound

/-! ### the fragments of a selector -/

/-- The values of a stage. -/
def held (s : Compound) : Stage → List Text
  | .element => s.element.toList
  | .id => s.id.toList
  | .styleClass => s.classes
  | .attr => s.attributes
  | .pseudoClass => s.pseudoClasses
  | .pseudoElement => s.pseudoElement.toList

def fragments (s : Compound) : List Fragment :=
  Stage.all.flatMap fun stage => (s.held stage).map (Fragment.mk stage)

theorem mem_fragments {s : Compound} {f : Fragment} :
    f ∈ s.fragments ↔ f.value ∈ s.held f.stage := by
  constructor
  · intro h
    obtain ⟨stage, _, hf⟩ := List.mem_flatMap.mp h
    obtain ⟨value, hv, rfl⟩ := List.mem_map.mp hf
    exact hv
  · intro h
    exact List.mem_flatMap.mpr ⟨f.stage, Stage.mem_all _, List.mem_map.mpr ⟨f.value, h, rfl⟩⟩

theorem fragments_empty (config : Config) : (empty config).fragments = [] := rfl

theorem exists_mem_held {s : Compound} {stage : Stage} :
    (∃ f ∈ s.fragments, f.stage = stage) ↔ s.held stage ≠ [] := by
  constructor
  · rintro ⟨f, hf, rfl⟩
    exact List.ne_nil_of_mem (mem_fragments.mp hf)
  · intro h
    obtain ⟨value, hv⟩ := List.exists_mem_of_ne_nil _ h
    exact ⟨⟨stage, value⟩, mem_fragments.mpr hv, rfl⟩

/-- The fragments stand in the order of the stages. -/
theorem pairwise_fragments (s : Compound) : s.fragments.Pairwise fun f g => f.stage ≤ g.stage := by
  refine List.pairwise_flatMap.mpr ⟨fun stage _ => ?_, ?_⟩
  · exact List.pairwise_map.mpr (List.pairwise_of_forall fun _ _ => Stage.le_refl stage)
  · refine Stage.pairwise_all.imp ?_
    intro a b hab f hf g hg
    obtain ⟨_, _, rfl⟩ := List.mem_map.mp hf
    obtain ⟨_, _, rfl⟩ := List.mem_map.mp hg
    exact Stage.le_of_lt hab

/-! ### the latest stage -/

/-- The latest stage is the stage of the last fragment. -/
def Consistent (s : Compound) : Prop := s.stage = s.fragments.getLast?.map Fragment.stage

theorem consistent_empty (config : Config) : (empty config).Consistent := rfl

theorem le_stage_of_getLast? {fragments : List Fragment} {last f : Fragment}
    (hp : fragments.Pairwise fun f g => f.stage ≤ g.stage) (hl : fragments.getLast? = some last)
    (hf : f ∈ fragments) : f.stage ≤ last.stage := by
  obtain ⟨init, rfl⟩ := List.getLast?_eq_some_iff.mp hl
  rcases List.mem_append.mp hf with h | h
  · exact (List.pairwise_append.mp hp).2.2 f h last List.mem_cons_self
  · rw [List.mem_singleton.mp h]
    exact Stage.le_refl _

/-- The latest stage decides which places have been passed. -/
theorem Consistent.passed_iff {s : Compound} (hs : s.Consistent) (target : Stage) :
    Passed s.fragments target ↔ ∃ latest, s.stage = some latest ∧ target < latest := by
  unfold Consistent at hs
  constructor
  · rintro ⟨f, hf, hlt⟩
    have hne := List.ne_nil_of_mem hf
    have hl := List.getLast?_eq_some_getLast hne
    refine ⟨(s.fragments.getLast hne).stage, by rw [hs, hl]; rfl, ?_⟩
    exact Stage.lt_of_lt_of_le hlt (le_stage_of_getLast? s.pairwise_fragments hl hf)
  · rintro ⟨latest, hl, hlt⟩
    rw [hs, Option.map_eq_some_iff] at hl
    obtain ⟨last, hlast, rfl⟩ := hl
    exact ⟨last, List.mem_of_getLast? hlast, hlt⟩

theorem held_eq_nil_of_not_passed {s : Compound} {target stage : Stage}
    (h : ¬ Passed s.fragments target) (hlt : target < stage) : s.held stage = [] := by
  cases hv : s.held stage with
  | nil => rfl
  | cons value _ =>
    have hne : s.held stage ≠ [] := by simp [hv]
    obtain ⟨f, hf, rfl⟩ := exists_mem_held.mpr hne
    exact absurd ⟨f, hf, hlt⟩ h

/-! ### what is rejected -/

theorem isSome_occupant {s : Compound} {target : Stage} :
    (s.occupant target).isSome = true ↔ Taken s.fragments target := by
  rw [Taken, exists_mem_held]
  cases target <;> simp [occupant, held, Stage.isSingleton, Option.isSome_iff_ne_none]

theorem duplicate?_eq {s : Compound} {target : Stage} (r : Rejection) :
    s.duplicate? target = some r ↔ Taken s.fragments target ∧ r = .duplicate target := by
  rw [duplicate?, ← isSome_occupant]
  by_cases h : (s.occupant target).isSome = true
  · simp [h, eq_comm]
  · simp [h]

/-- A place that has been passed is looked at before one that is taken. -/
theorem Consistent.rejection?_eq_some_iff {s : Compound} (hs : s.Consistent) (target : Stage)
    (r : Rejection) :
    s.rejection? target = some r ↔
      (∃ latest, s.stage = some latest ∧ target < latest ∧ r = .outOfOrder target latest) ∨
      (¬ Passed s.fragments target ∧ Taken s.fragments target ∧ r = .duplicate target) := by
  rw [hs.passed_iff, rejection?]
  cases hst : s.stage with
  | none => simp [duplicate?_eq]
  | some latest =>
    by_cases hlt : target < latest
    · simp [hlt, eq_comm]
    · simp [hlt, duplicate?_eq]

theorem Consistent.rejection?_eq_none_iff {s : Compound} (hs : s.Consistent) (target : Stage) :
    s.rejection? target = none ↔ ¬ Passed s.fragments target ∧ ¬ Taken s.fragments target := by
  constructor
  · intro h
    have hp : ¬ Passed s.fragments target := by
      intro hp
      obtain ⟨latest, hl, hlt⟩ := (hs.passed_iff target).mp hp
      rw [(hs.rejection?_eq_some_iff target _).mpr (Or.inl ⟨latest, hl, hlt, rfl⟩)] at h
      cases h
    refine ⟨hp, fun ht => ?_⟩
    rw [(hs.rejection?_eq_some_iff target _).mpr (Or.inr ⟨hp, ht, rfl⟩)] at h
    cases h
  · rintro ⟨hp, ht⟩
    cases hr : s.rejection? target with
    | none => rfl
    | some r =>
      rcases (hs.rejection?_eq_some_iff target r).mp hr with ⟨latest, hl, hlt, _⟩ | ⟨_, htaken, _⟩
      · exact absurd ((hs.passed_iff target).mpr ⟨latest, hl, hlt⟩) hp
      · exact absurd htaken ht

/-! ### what is accepted -/

theorem held_place_of_ne (s : Compound) {target stage : Stage} (h : stage ≠ target)
    (value : Text) : (s.place target value).held stage = s.held stage := by
  cases target <;> cases stage <;> first | rfl | exact absurd rfl h

theorem held_place_self {s : Compound} {target : Stage} (h : ¬ Taken s.fragments target)
    (value : Text) : (s.place target value).held target = s.held target ++ [value] := by
  rw [Taken, exists_mem_held] at h
  cases target with
  | styleClass | attr | pseudoClass => rfl
  | element | id | pseudoElement =>
    have hnil := Decidable.not_not.mp fun hne => h ⟨rfl, hne⟩
    rw [hnil]
    rfl

/-- A fragment in a free place comes after all others. -/
theorem fragments_place {s : Compound} {target : Stage} (hp : ¬ Passed s.fragments target)
    (ht : ¬ Taken s.fragments target) (value : Text) :
    (s.place target value).fragments = s.fragments ++ [⟨target, value⟩] := by
  have hself := held_place_self ht value
  have hlater : ∀ stage, target < stage → s.held stage = [] := fun _ =>
    held_eq_nil_of_not_passed hp
  have hother : ∀ stage, stage ≠ target → (s.place target value).held stage = s.held stage :=
    fun _ h => held_place_of_ne s h value
  cases target <;>
    simp [fragments, Stage.all, hself, hother, hlater, Stage.lt_iff, Stage.ordinal]

theorem append_consistent {s s' : Compound} {target : Stage} {value : Text} (hs : s.Consistent)
    (h : s.append target value = .ok s') :
    s'.Consistent ∧ s'.fragments = s.fragments ++ [⟨target, value⟩] := by
  obtain ⟨hr, rfl⟩ := (append_eq_ok_iff _ _ _ _).mp h
  obtain ⟨hp, ht⟩ := (hs.rejection?_eq_none_iff target).mp hr
  have hf := fragments_place hp ht value
  refine ⟨?_, hf⟩
  rw [Consistent, hf, List.getLast?_concat, stage_place]
  rfl

end Compound

end SelectorForge
