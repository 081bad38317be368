import SelectorForge.Proofs.Selector.History
import Mathlib.Computability.RegularExpressions
import Mathlib.Data.List.TakeWhile

/-!
# The grammar of a selector

Which stages the fragments of a selector have, one after the other, is a regular language:
`element? id? class* attribute* pseudo-class* pseudo-element?`.

* `Stage.grammar`                the expression;
* `Stage.MayFollow`              which stage may stand somewhere after which;
* `Stage.mem_grammar_iff`        the words of the language, pair by pair;
* `Stage.concat_mem_grammar_iff` how such a word is made longer by one stage.
-/

namespace SelectorForge.Stage

open RegularExpression

/-! ### the expression -/

def optional (stage : Stage) : RegularExpression Stage := 1 + char stage

def repeated (stage : Stage) : RegularExpression Stage := star (char stage)

def grammar : RegularExpression Stage :=
  optional .element * (optional .id * (repeated .styleClass * (repeated .attr *
    (repeated .pseudoClass * optional .pseudoElement))))

/-- A stage is behind another one, or it may come up again. -/
def MayFollow (a b : Stage) : Prop := a < b ∨ a = b ∧ a.isSingleton = false

/-! ### one stage -/

theorem mem_optional_iff (stage : Stage) (hs : stage.isSingleton = true) (w : List Stage) :
    w ∈ (optional stage).matches' ↔ (∀ a ∈ w, a = stage) ∧ w.Pairwise MayFollow := by
  rw [optional, matches'_add, Language.mem_add, matches'_epsilon, Language.mem_one, matches'_char]
  constructor
  · rintro (rfl | rfl)
    · exact ⟨fun a ha => absurd ha List.not_mem_nil, List.Pairwise.nil⟩
    · exact ⟨fun a ha => List.mem_singleton.mp ha, List.pairwise_singleton _ _⟩
  · rintro ⟨hw, hp⟩
    match w, hw, hp with
    | [], _, _ => exact Or.inl rfl
    | [a], hw, _ => exact Or.inr (by rw [hw a List.mem_cons_self]; rfl)
    | a :: b :: _, hw, hp =>
      -- a second occurrence would follow the first one
      have ha := hw a List.mem_cons_self
      have hb := hw b (List.mem_cons_of_mem _ List.mem_cons_self)
      rcases (List.pairwise_cons.mp hp).1 b List.mem_cons_self with hlt | ⟨_, hf⟩
      · rw [ha, hb] at hlt
        exact absurd hlt (lt_irrefl _)
      · rw [ha, hs] at hf
        cases hf

theorem mem_repeated_iff (stage : Stage) (hs : stage.isSingleton = false) (w : List Stage) :
    w ∈ (repeated stage).matches' ↔ (∀ a ∈ w, a = stage) ∧ w.Pairwise MayFollow := by
  rw [repeated, matches'_star, Language.mem_kstar, matches'_char]
  constructor
  · rintro ⟨parts, rfl, hparts⟩
    have hall : ∀ a ∈ parts.flatten, a = stage := by
      intro a ha
      obtain ⟨part, hp, ha⟩ := List.mem_flatten.mp ha
      rw [hparts part hp] at ha
      exact List.mem_singleton.mp ha
    refine ⟨hall, List.pairwise_of_forall_mem_list fun a ha b hb => Or.inr ?_⟩
    rw [hall a ha, hall b hb]
    exact ⟨rfl, hs⟩
  · rintro ⟨hw, _⟩
    refine ⟨w.map fun a => [a], ?_, ?_⟩
    · rw [← List.flatMap_def, List.flatMap_singleton']
    · intro part hp
      obtain ⟨a, ha, rfl⟩ := List.mem_map.mp hp
      rw [hw a ha]
      rfl

/-! ### one stage and the later ones -/

/-- An expression for the words from a stage on. -/
def Covers (e : RegularExpression Stage) (first : Stage) : Prop :=
  ∀ w, w ∈ e.matches' ↔ (∀ a ∈ w, first ≤ a) ∧ w.Pairwise MayFollow

theorem le_of_mayFollow {a b : Stage} (h : MayFollow a b) : a ≤ b := by
  rcases h with h | ⟨rfl, _⟩
  · exact le_of_lt h
  · exact le_refl a

/-- The last part of the expression. -/
theorem covers_last {e : RegularExpression Stage}
    (he : ∀ w, w ∈ e.matches' ↔ (∀ a ∈ w, a = pseudoElement) ∧ w.Pairwise MayFollow) :
    Covers e pseudoElement := by
  have hlast : ∀ a : Stage, a = pseudoElement ↔ pseudoElement ≤ a := by
    intro a
    cases a <;> decide
  intro w
  rw [he w]
  simp only [hlast]

theorem mul_covers {e e' : RegularExpression Stage} {first second : Stage}
    (hnext : second.ordinal = first.ordinal + 1)
    (he : ∀ w, w ∈ e.matches' ↔ (∀ a ∈ w, a = first) ∧ w.Pairwise MayFollow)
    (he' : Covers e' second) : Covers (e * e') first := by
  have hlt : ∀ a, first < a ↔ second ≤ a := by
    intro a
    rw [lt_iff, le_iff, hnext]
    exact Nat.lt_iff_add_one_le
  intro w
  rw [matches'_mul, Language.mem_mul]
  constructor
  · rintro ⟨v, hv, v', hv', rfl⟩
    obtain ⟨hv, hp⟩ := (he v).mp hv
    obtain ⟨hv', hp'⟩ := (he' v').mp hv'
    constructor
    · intro a ha
      rcases List.mem_append.mp ha with ha | ha
      · rw [hv a ha]
        exact le_refl first
      · exact le_of_lt ((hlt a).mpr (hv' a ha))
    · refine List.pairwise_append.mpr ⟨hp, hp', fun a ha b hb => Or.inl ?_⟩
      rw [hv a ha]
      exact (hlt b).mpr (hv' b hb)
  · rintro ⟨hw, hp⟩
    -- the word is cut where its first stage ends
    have hcut := List.takeWhile_append_dropWhile (p := (· == first)) (l := w)
    rw [← hcut] at hp
    obtain ⟨hp₁, hp₂, _⟩ := List.pairwise_append.mp hp
    refine ⟨_, (he _).mpr ⟨fun a ha => ?_, hp₁⟩, _, (he' _).mpr ⟨fun a ha => ?_, hp₂⟩, hcut⟩
    · have hbeq := List.mem_takeWhile_imp ha
      exact eq_of_beq hbeq
    · have hmem : ∀ b ∈ w.dropWhile (· == first), b ∈ w := fun b hb =>
        (List.dropWhile_sublist _).mem hb
      cases hd : w.dropWhile (· == first) with
      | nil =>
        rw [hd] at ha
        cases ha
      | cons b rest =>
        have hne : b ≠ first := by
          have hnot := List.head?_dropWhile_not (· == first) w
          rw [hd] at hnot
          simpa using hnot
        have hb : first < b := by
          have hle := hw b (hmem b (by rw [hd]; exact List.mem_cons_self))
          rcases lt_or_eq_of_le hle with h | h
          · exact h
          · exact absurd h.symm hne
        rw [hd] at ha hp₂
        rcases List.mem_cons.mp ha with rfl | ha
        · exact (hlt a).mp hb
        · have hba := le_of_mayFollow ((List.pairwise_cons.mp hp₂).1 a ha)
          exact (hlt a).mp (lt_of_lt_of_le hb hba)

/-! ### the language -/

/-- **The words of the grammar**, pair by pair. -/
theorem mem_grammar_iff (w : List Stage) : w ∈ grammar.matches' ↔ w.Pairwise MayFollow := by
  have h₅ := covers_last (mem_optional_iff .pseudoElement rfl)
  have h₄ := mul_covers rfl (mem_repeated_iff .pseudoClass rfl) h₅
  have h₃ := mul_covers rfl (mem_repeated_iff .attr rfl) h₄
  have h₂ := mul_covers rfl (mem_repeated_iff .styleClass rfl) h₃
  have h₁ := mul_covers rfl (mem_optional_iff .id rfl) h₂
  have h₀ := mul_covers rfl (mem_optional_iff .element rfl) h₁
  refine (h₀ w).trans ⟨fun h => h.2, fun h => ⟨fun a _ => ?_, h⟩⟩
  exact Nat.zero_le _

theorem nil_mem_grammar : [] ∈ grammar.matches' := (mem_grammar_iff []).mpr List.Pairwise.nil

theorem concat_mem_grammar_iff (w : List Stage) (stage : Stage) :
    w ++ [stage] ∈ grammar.matches' ↔
      w ∈ grammar.matches' ∧ (∀ a ∈ w, ¬ stage < a) ∧ (stage.isSingleton = true → stage ∉ w) := by
  rw [mem_grammar_iff, mem_grammar_iff, List.pairwise_append]
  constructor
  · rintro ⟨hp, _, hcross⟩
    have hfollow := fun a ha => hcross a ha stage List.mem_cons_self
    refine ⟨hp, fun a ha => not_lt.mpr (le_of_mayFollow (hfollow a ha)), fun hs hmem => ?_⟩
    rcases hfollow stage hmem with h | ⟨_, h⟩
    · exact lt_irrefl stage h
    · rw [hs] at h
      cases h
  · rintro ⟨hp, hle, hs⟩
    refine ⟨hp, List.pairwise_singleton _ _, fun a ha b hb => ?_⟩
    rw [List.mem_singleton.mp hb]
    rcases lt_or_eq_of_le (not_lt.mp (hle a ha)) with h | rfl
    · exact Or.inl h
    · exact Or.inr ⟨rfl, Bool.eq_false_iff.mpr fun h => hs h ha⟩

end SelectorForge.Stage
