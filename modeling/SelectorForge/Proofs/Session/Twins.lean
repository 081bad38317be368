import SelectorForge.Proofs.Session.Keeping

/-!
# Two selectors with the same fragments

A number in the place of the latest stage knows the order of the stages, but it has no label. So a
selector with a number takes the same fragments as one with a stage, and rejects the same ones,
though those that are out of order with another fault. The first fragment that it takes puts a stage
into the place of the number.

* `Layout.numberValue`      the latest stage as a number, and `Layout.unlabelled` how it rejects;
* `Twins`                   one call after the other, each to both selectors of a store;
* `Twins.Answers`           what the second selector answers where the first has answered;
* `Twins.Joined.answers`    one call to both, and `Twins.Joined.next` what is left by it.
-/

namespace SelectorForge

open Effect

namespace Layout

variable {l l' : Layout} {st st' : Store} {r p : Ref} {s : Compound} {latest : Value}

/-! ### a number for the latest stage -/

def numberValue : Option Stage → Value
  | none => .null
  | some stage => .int stage.ordinal

/-- Without a label an order violation is neither named nor noted. -/
def unlabelled : Manner
  | .outOfOrder _ _ => (.noAttribute "int" Name.label, [])
  | .duplicate stage => labelled (.duplicate stage)

/-- Numbers answer for nothing but their parts. -/
def Plain (st : Store) : Prop := ∀ n, st.givenTo (.int n) = []

theorem lookup_label_int (h : Plain st) (n : Int) :
    st.lookup (.int n) Name.label = .error (.noAttribute "int" Name.label) := by
  simp only [Store.lookup, Store.memberTable, h n]
  rfl

theorem isAfter_numberValue (st : Store) (stage : Option Stage) (target : Stage) :
    isAfter st (numberValue stage) target = isAfter st (latestValue stage) target := by
  cases stage <;> rfl

theorem guards_numberValue (h : Plain st) (stage : Option Stage) :
    Guards (numberValue stage) stage unlabelled st where
  isAfter target := by rw [isAfter_numberValue, isAfter_latestValue]
  outOfOrder target last hstage notes := by
    rw [hstage, numberValue, rejectAfter, run_query, Store.callMissing, lookup_label_int h]
    · exact congrArg (fun notes => (_, (⟨st, notes⟩ : World))) (List.append_nil notes).symm
    · exact fun _ => Value.noConfusion
  duplicate _ := rfl

/-! ### places of a selector -/

/-- Where the object and its lists stand. -/
def Owns (l : Layout) (r q : Ref) : Prop :=
  q = r ∨ ∃ stage : Stage, stage.isSingleton = false ∧ q = l.lists stage

theorem Confined.node_eq_of_not_owns (h : l.Confined r st st') {q : Ref} (hq : ¬ l.Owns r q) :
    st'.node q = st.node q :=
  h.node_eq q (fun he => hq (Or.inl he)) fun stage hs he => hq (Or.inr ⟨stage, hs, he⟩)

/-- What happens to a selector does not happen to another one. -/
theorem Stands.confined (h : l.Stands latest st r s) (hc : l'.Confined p st st')
    (hapart : ∀ q, l.Owns r q → ¬ l'.Owns p q) : l.Stands latest st' r s :=
  h.congr (hc.node_eq_of_not_owns (hapart r (Or.inl rfl)))
    fun stage hs => hc.node_eq_of_not_owns (hapart _ (Or.inr ⟨stage, hs, rfl⟩))

theorem Confined.plain (h : l.Confined r st st') (hst : Plain st) : Plain st' := fun n => by
  rw [Store.givenTo, h.given_eq]
  exact hst n

end Layout

/-! ### calls to both -/

/-- What has come of calls to two selectors of one store: the fragments that each of them has taken,
and the store. -/
structure Twins where
  first : List Fragment := []
  second : List Fragment := []
  store : Store

namespace Twins

open Layout

/-- One more call, to both. -/
def next (v u : Value) (run : Twins) (f : Fragment) : Twins :=
  let one := Calls.next v ⟨run.first, run.store⟩ f
  let both := Calls.next u ⟨run.second, one.store⟩ f
  ⟨one.accepted, both.accepted, both.store⟩

def after (v u : Value) (st : Store) (calls : List Fragment) : Twins :=
  calls.foldl (next v u) { store := st }

/-- What the first of them answers, and the second one after it. -/
def answer (v u : Value) (run : Twins) (f : Fragment) :
    (Except Fault Value × World) × (Except Fault Value × World) :=
  let one := (append v f.stage f.value).run { store := run.store }
  (one, (append u f.stage f.value).run { store := one.2.store })

/-- What is answered in each case. A rejected fragment leaves the store as it is, and the second
selector knows what is out of order, but it can name it only if it holds a stage. -/
inductive Answers (st : Store) (v u : Value) (numbered : Bool) :
    (Except Fault Value × World) × (Except Fault Value × World) → Prop
  | taken (w w' : World) : Answers st v u numbered ((.ok v, w), (.ok u, w'))
  | duplicate (stage : Stage) (notes : List Text) :
    Answers st v u numbered ((.error (.rejected (.duplicate stage)), ⟨st, notes⟩),
      (.error (.rejected (.duplicate stage)), ⟨st, notes⟩))
  | outOfOrder (stage latest : Stage) (notes notes' : List Text) :
    Answers st v u numbered ((.error (.rejected (.outOfOrder stage latest)), ⟨st, notes⟩),
      (.error (if numbered then .noAttribute "int" Name.label
        else .rejected (.outOfOrder stage latest)), ⟨st, notes'⟩))

/-- What the first selector finds out of order decides what the second one answers. -/
theorem Answers.second_of_outOfOrder {st : Store} {v u : Value} {numbered : Bool}
    {answers : (Except Fault Value × World) × (Except Fault Value × World)}
    (h : Answers st v u numbered answers) {stage latest : Stage}
    (hfirst : answers.1.1 = .error (.rejected (.outOfOrder stage latest))) :
    answers.2.1 = .error (if numbered then .noAttribute "int" Name.label
      else .rejected (.outOfOrder stage latest)) := by
  cases h with
  | taken | duplicate => cases hfirst
  | outOfOrder =>
    cases hfirst
    rfl

/-- As long as the second selector has taken nothing, there is a number in it. -/
def numbered (run : Twins) : Bool := run.second.isEmpty

/-- The second one's latest stage: a number or a stage. -/
def latestOf (numbered : Bool) (stage : Option Stage) : Value :=
  if numbered then numberValue stage else latestValue stage

def manner (numbered : Bool) : Manner := if numbered then unlabelled else labelled

/-- Both stand for one selector, with places of their own. -/
structure Joined (run : Twins) (p r : Ref) (s : Compound) (l l' : Layout) : Prop where
  first : l.Represents run.store p s
  second : l'.Stands (latestOf run.numbered s.stage) run.store r s
  apart : ∀ q, l.Owns p q → ¬ l'.Owns r q
  taken : run.first = run.second
  plain : Plain run.store

variable {run : Twins} {st : Store} {p r : Ref} {s : Compound} {l l' : Layout}

theorem guards_latestOf (h : Plain st) (numbered : Bool) (stage : Option Stage) :
    Guards (latestOf numbered stage) stage (manner numbered) st := by
  cases numbered with
  | true => exact guards_numberValue h stage
  | false => exact guards_latestValue stage st

/-- **One call to both**: both take the fragment and stand for one selector again, or both reject it
and nothing has changed. -/
theorem Joined.step (h : run.Joined p r s l l') (f : Fragment) :
    Answers run.store (.ref p) (.ref r) run.numbered (run.answer (.ref p) (.ref r) f) ∧
      (run.next (.ref p) (.ref r) f).Joined p r (s.attempt f.stage f.value) l l' := by
  have hfirst := h.first.run_append [] f.stage f.value
  have hguards := guards_latestOf h.plain run.numbered s.stage
  unfold next answer Calls.next Calls.answer Compound.attempt
  cases ha : s.append f.stage f.value with
  | error rejection =>
    have hsecond := h.second.run_append hguards [] f.stage f.value
    rw [ha] at hfirst hsecond
    simp only [hfirst, hsecond]
    refine ⟨?_, h⟩
    cases rejection with
    | duplicate stage =>
      rw [hguards.duplicate]
      exact .duplicate stage _
    | outOfOrder stage latest =>
      cases run.numbered <;> exact .outOfOrder stage latest _ _
  | ok t =>
    rw [ha] at hfirst
    obtain ⟨st₁, hfirst, hfirst'⟩ := hfirst
    obtain ⟨hr, rfl⟩ := (Compound.append_eq_ok_iff _ _ _ _).mp ha
    have hc : l.Confined p run.store st₁ := h.first.confined_append hr hfirst
    have hstands := h.second.confined hc fun q hq hp => h.apart q hp hq
    have hguards₁ := guards_latestOf (hc.plain h.plain) run.numbered s.stage
    have hsecond := hstands.run_append hguards₁ [] f.stage f.value
    rw [ha] at hsecond
    obtain ⟨st₂, hsecond, hsecond'⟩ := hsecond
    have hc' : l'.Confined r st₁ st₂ := hstands.confined_append hguards₁ hr hsecond
    simp only [hfirst, hsecond]
    refine ⟨.taken _ _, ?_⟩
    have hnumbered : (run.second ++ [f]).isEmpty = false := by simp
    refine ⟨hfirst'.confined hc' h.apart, ?_, h.apart, by rw [h.taken],
      hc'.plain (hc.plain h.plain)⟩
    rw [numbered, hnumbered]
    exact hsecond'

theorem Joined.after (h : Joined { store := st } p r s l l') (calls : List Fragment) :
    (after (.ref p) (.ref r) st calls).Joined p r (s.attemptAll calls) l l' := by
  have hall : ∀ (run : Twins) (s : Compound), run.Joined p r s l l' →
      (calls.foldl (Twins.next (.ref p) (.ref r)) run).Joined p r (s.attemptAll calls) l l' := by
    induction calls with
    | nil => exact fun _ _ h => h
    | cons f calls ih => exact fun run s h => ih _ _ (h.step f).2
  exact hall _ s h

/-! ### what shows -/

/-- Two values that count as the same latest stage: the same integer, or nothing. -/
def SameStage (a b : Value) : Prop :=
  (a = .null ∧ b = .null) ∨ ∃ n, Store.asInt? a = some n ∧ Store.asInt? b = some n

/-- Two selectors with the same fragments in their places and the same latest stage. -/
structure Even (st : Store) (v u : Value) : Prop where
  slots : ∃ vs, st.slots v = .ok vs ∧ st.slots u = .ok vs
  stage : ∃ a b, st.lookup v Name.ownStage = .ok a ∧ st.lookup u Name.ownStage = .ok b ∧
    SameStage a b

theorem sameStage_latestOf (numbered : Bool) (stage : Option Stage) :
    SameStage (latestValue stage) (latestOf numbered stage) := by
  cases stage with
  | none => cases numbered <;> exact Or.inl ⟨rfl, rfl⟩
  | some stage => cases numbered <;> exact Or.inr ⟨stage.ordinal, rfl, rfl⟩

theorem Joined.even (h : run.Joined p r s l l') : Even run.store (.ref p) (.ref r) where
  slots := ⟨_, h.first.slots_eq, h.second.slots_eq⟩
  stage := ⟨_, _, h.first.lookup_ownStage, h.second.lookup_ownStage, sameStage_latestOf _ _⟩

end Twins

end SelectorForge
