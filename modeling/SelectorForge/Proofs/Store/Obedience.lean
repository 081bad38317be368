import SelectorForge.Proofs.Store.Changes
import SelectorForge.Proofs.Store.Growth
import SelectorForge.Session.Portrait

/-!
# Effects that obey a policy

The operations of selectors, builders and combinations are made of changes that keep to a policy, so
they obey it, whether they succeed or fail half way:

* `Policy.Obeys`           an effect that obeys a policy, and what it answers then;
* `Policy.append_obeys`    a fragment for a selector or a builder;
* `Policy.combine_obeys`   a combination;
* `Policy.get_obeys`       what is answered for a name;
* `Policy.area_obeys`      a product.
-/

namespace SelectorForge

open Effect

/-! ### runs that succeed -/

namespace Effect

variable {α β : Type}

theorem run_bind_eq_ok {e : Effect α} {f : α → Effect β} {w w' : World} {b : β}
    (h : (e >>= f).run w = (.ok b, w')) :
    ∃ a w₁, e.run w = (.ok a, w₁) ∧ (f a).run w₁ = (.ok b, w') := by
  rw [run_bind] at h
  rcases hrun : e.run w with ⟨a | a, w₁⟩
  · rw [hrun] at h
    cases h
  · rw [hrun] at h
    exact ⟨a, w₁, rfl, h⟩

theorem run_query_bind_eq_ok {ask : Store → Except Fault α} {f : α → Effect β}
    {w w' : World} {b : β} (h : (query ask >>= f).run w = (.ok b, w')) :
    ∃ a, ask w.store = .ok a ∧ (f a).run w = (.ok b, w') := by
  obtain ⟨a, w₁, hask, hrun⟩ := run_bind_eq_ok h
  obtain ⟨ha, rfl⟩ := Prod.mk.inj hask
  exact ⟨a, ha, hrun⟩

end Effect

namespace Policy

variable {D : Policy} {α β : Type} {st st' : Store}

/-- An effect that keeps to a policy from a store on, and what its answers are then. -/
def Obeys (D : Policy) (st : Store) (e : Effect α) (Q : Store → α → Prop) : Prop :=
  ∀ notes, D.Holds (e.run ⟨st, notes⟩).2.store ∧ st.size ≤ (e.run ⟨st, notes⟩).2.store.size ∧
    ∀ a, (e.run ⟨st, notes⟩).1 = .ok a → Q (e.run ⟨st, notes⟩).2.store a

/-! ### single moves -/

section moves

variable {e : Effect α} {Q : Store → α → Prop}

theorem Obeys.mono {R : Store → α → Prop} (h : D.Obeys st e Q)
    (hQ : ∀ st' a, D.Holds st' → st.size ≤ st'.size → Q st' a → R st' a) : D.Obeys st e R := by
  intro notes
  obtain ⟨hst', hle, hanswer⟩ := h notes
  exact ⟨hst', hle, fun a ha => hQ _ a hst' hle (hanswer a ha)⟩

theorem Obeys.forget (h : D.Obeys st e Q) : D.Obeys st e fun _ _ => True :=
  h.mono fun _ _ _ _ _ => trivial

theorem obeys_pure (hst : D.Holds st) {a : α} (h : Q st a) : D.Obeys st (pure a) Q :=
  fun _ => ⟨hst, Nat.le_refl _, fun _ ha => Except.ok.inj ha ▸ h⟩

theorem obeys_fail (hst : D.Holds st) (f : Fault) : D.Obeys st (fail f) Q :=
  fun _ => ⟨hst, Nat.le_refl _, fun _ ha => by cases ha⟩

theorem obeys_query (hst : D.Holds st) {ask : Store → Except Fault α}
    (h : ∀ a, ask st = .ok a → Q st a) : D.Obeys st (query ask) Q :=
  fun _ => ⟨hst, Nat.le_refl _, h⟩

theorem obeys_note (hst : D.Holds st) (t : Text) : D.Obeys st (note t) fun st' _ => st' = st :=
  fun _ => ⟨hst, Nat.le_refl _, fun _ _ => rfl⟩

theorem obeys_alloc (hst : D.Holds st) {n : Node} (hn : ∀ v ∈ n.values, D.Admits st v) :
    D.Obeys st (alloc n) D.Free := by
  refine fun _ => ⟨D.holds_alloc hst hn, Nat.le_of_lt (st.size_lt_alloc n), fun v hv => ?_⟩
  cases hv
  exact ⟨D.admits_new hst (st.size_lt_alloc n), fun r hr => Value.ref.inj hr ▸ D.opens_new hst⟩

theorem obeys_assign (hst : D.Holds st) {r : Ref} (hr : D.Opens r)
    (hfixed : (st.node r).isFixed = false) (name : Text) {value : Value}
    (hvalue : D.Admits st value) :
    D.Obeys st (assign r name value) fun st' _ => (st'.node r).isFixed = false := by
  refine fun _ => ⟨holds_assign hst hr hfixed name hvalue,
    Nat.le_of_eq (st.size_assign r name value).symm, fun _ _ => ?_⟩
  rw [← hfixed]
  exact st.isFixed_changeAttributes r r _ _

theorem obeys_transform (hst : D.Holds st) {f : Store → Except Fault (α × Store)}
    (h : ∀ a st', f st = .ok (a, st') → D.Holds st' ∧ st.size ≤ st'.size ∧ Q st' a) :
    D.Obeys st (transform f) Q := by
  intro notes
  cases hf : f st with
  | error e =>
    rw [run_transform_error (w := ⟨st, notes⟩) hf]
    exact ⟨hst, Nat.le_refl _, fun _ ha => by cases ha⟩
  | ok out =>
    obtain ⟨a, st'⟩ := out
    obtain ⟨hst', hle, ha⟩ := h a st' hf
    rw [run_transform_ok (w := ⟨st, notes⟩) hf]
    exact ⟨hst', hle, fun _ he => Except.ok.inj he ▸ ha⟩

theorem obeys_change (hst : D.Holds st) {f : Store → Except Fault Store}
    (h : ∀ st', f st = .ok st' → D.Holds st' ∧ st.size ≤ st'.size) :
    D.Obeys st (change f) fun _ _ => True := by
  refine obeys_transform hst fun _ st' hf => ?_
  cases hs : f st with
  | error e =>
    rw [hs] at hf
    cases hf
  | ok st₁ =>
    rw [hs] at hf
    cases hf
    exact ⟨(h _ hs).1, (h _ hs).2, trivial⟩

/-- What comes after is to be obeyed in every store that can be left behind. -/
theorem Obeys.bind {f : α → Effect β} {R : Store → β → Prop} (h : D.Obeys st e Q)
    (hf : ∀ st' a, D.Holds st' → st.size ≤ st'.size → Q st' a → D.Obeys st' (f a) R) :
    D.Obeys st (e >>= f) R := by
  intro notes
  obtain ⟨hst', hle, hanswer⟩ := h notes
  rw [run_bind]
  rcases hrun : e.run ⟨st, notes⟩ with ⟨a | a, w⟩
  · rw [hrun] at hst' hle
    exact ⟨hst', hle, fun _ ha => by cases ha⟩
  · rw [hrun] at hst' hle hanswer
    obtain ⟨hst'', hle', hanswer'⟩ := hf w.store a hst' hle (hanswer a rfl) w.notes
    exact ⟨hst'', Nat.le_trans hle hle', hanswer'⟩

theorem obeys_query_bind {ask : Store → Except Fault α} {f : α → Effect β}
    {R : Store → β → Prop} (hst : D.Holds st) (h : ∀ a, ask st = .ok a → D.Obeys st (f a) R) :
    D.Obeys st (query ask >>= f) R := by
  refine (obeys_query (Q := fun st' a => st' = st ∧ ask st = .ok a) hst fun a ha => ⟨rfl, ha⟩).bind ?_
  rintro _ a _ _ ⟨rfl, ha⟩
  exact h a ha

theorem obeys_callMissing (hst : D.Holds st) (v : Value) (name : Text) :
    D.Obeys st (query fun st => st.callMissing v name) Q :=
  obeys_query hst fun _ h => absurd h Store.callMissing_ne_ok

end moves

/-! ### new objects -/

theorem newConfig_obeys (hst : D.Holds st) (c : Config) : D.Obeys st (newConfig c) D.Free := by
  refine obeys_alloc hst fun v hv => D.admits_scalar fun r hr => ?_
  rw [hr] at hv
  simp [Node.values, Kind.values, Attributes.values] at hv

theorem configOr_obeys (hst : D.Holds st) {v : Value} (hv : D.Admits st v) :
    D.Obeys st (configOr v) D.Admits := by
  refine obeys_query_bind hst fun truth _ => ?_
  split
  · exact obeys_pure hst hv
  · exact (newConfig_obeys hst {}).mono fun _ _ _ _ h => h.1

theorem newBuilder_obeys (hst : D.Holds st) {config : Value} (hc : D.Admits st config) :
    D.Obeys st (newBuilder config) D.Free := by
  refine (configOr_obeys hst hc).bind fun st₁ c hst₁ _ hc => obeys_alloc hst₁ fun v hv => ?_
  rw [List.mem_singleton.mp hv]
  exact hc

theorem newSelector_obeys (hst : D.Holds st) {config : Value} (hc : D.Admits st config) :
    D.Obeys st (newSelector config) D.Free := by
  have hlist : ∀ {st : Store}, D.Holds st → D.Obeys st (alloc (.list [])) D.Free :=
    fun hst => obeys_alloc hst fun _ hv => absurd hv List.not_mem_nil
  have hnull : ∀ st : Store, D.Admits st .null := fun _ => D.admits_scalar fun _ => Value.noConfusion
  refine (configOr_obeys hst hc).bind fun st₁ c hst₁ _ hc => ?_
  refine (hlist hst₁).bind fun st₂ classes hst₂ h₁₂ hclasses => ?_
  refine (hlist hst₂).bind fun st₃ attributes hst₃ h₂₃ hattributes => ?_
  refine (hlist hst₃).bind fun st₄ pseudoClasses hst₄ h₃₄ hpseudoClasses => ?_
  refine obeys_alloc hst₄ fun v hv => ?_
  simp only [Node.values, Kind.values, Attributes.values, List.nil_append, List.map_cons,
    List.map_nil, List.mem_cons, List.not_mem_nil, or_false] at hv
  rcases hv with rfl | rfl | rfl | rfl | rfl | rfl | rfl | rfl
  · exact D.admits_mono (Nat.le_trans h₁₂ (Nat.le_trans h₂₃ h₃₄)) hc
  · exact hnull st₄
  · exact hnull st₄
  · exact hnull st₄
  · exact D.admits_mono (Nat.le_trans h₂₃ h₃₄) hclasses.1
  · exact D.admits_mono h₃₄ hattributes.1
  · exact hpseudoClasses.1
  · exact hnull st₄

theorem newCombination_obeys (hst : D.Holds st) {left combinator right pad : Value}
    (hleft : D.Admits st left) (hcombinator : D.Admits st combinator)
    (hright : D.Admits st right) (hpad : D.Admits st pad) :
    D.Obeys st (newCombination left combinator right pad) D.Free := by
  refine obeys_alloc hst fun v hv => ?_
  simp only [Node.values, Kind.values, Attributes.values, List.nil_append, List.map_cons,
    List.map_nil, List.mem_cons, List.not_mem_nil, or_false] at hv
  rcases hv with rfl | rfl | rfl | rfl
  · exact hleft
  · exact hcombinator
  · exact hright
  · exact hpad

/-! ### growing -/

theorem rejectAfter_obeys (hst : D.Holds st) (latest : Value) (target : Stage)
    {Q : Store → Unit → Prop} : D.Obeys st (rejectAfter latest target) Q := by
  unfold rejectAfter
  cases latest with
  | stage s => exact (obeys_note hst _).bind fun st₁ _ hst₁ _ _ => obeys_fail hst₁ _
  | null | bool | int | float | str | octets | combinator | ref =>
    exact obeys_callMissing hst _ _

theorem moveUp_obeys (hst : D.Holds st) {r : Ref} (hr : D.Opens r)
    (hfixed : (st.node r).isFixed = false) (target : Stage) (occupant : Value) :
    D.Obeys st (moveUp r target occupant) fun st' _ => (st'.node r).isFixed = false := by
  refine obeys_query_bind hst fun latest _ => obeys_query_bind hst fun after _ => ?_
  split
  · exact rejectAfter_obeys hst latest target
  · split
    · exact (obeys_note hst _).bind fun st₁ _ hst₁ _ _ => obeys_fail hst₁ _
    · exact obeys_assign hst hr hfixed _ (D.admits_scalar fun _ => Value.noConfusion)

theorem appendTo_obeys (hst : D.Holds st) {r : Ref} (hr : D.Free st (.ref r))
    (hfixed : (st.node r).isFixed = false) (attributes : Attributes) (target : Stage)
    (value : Text) : D.Obeys st (appendTo r attributes target value) fun _ _ => True := by
  have hopen : D.Opens r := hr.2 r rfl
  have hvalue : ∀ st : Store, D.Admits st (.str value) := fun _ =>
    D.admits_scalar fun _ => Value.noConfusion
  -- from the place of the fragment on, whatever has been found there
  have hplace : ∀ occupant, D.Obeys st (checkOperation attributes Name.moveUp >>= fun _ =>
      moveUp r target occupant >>= fun _ =>
        if target.isSingleton then assign r (Name.slot target) (.str value)
        else do
          let list ← query fun st => st.lookup (.ref r) (Name.slot target)
          change fun st => st.push list (.str value)) fun _ _ => True := by
    intro occupant
    refine obeys_query_bind hst fun _ _ => ?_
    refine (moveUp_obeys hst hopen hfixed target occupant).bind fun st₁ _ hst₁ hle hfixed₁ => ?_
    split
    · exact (obeys_assign hst₁ hopen hfixed₁ _ (hvalue st₁)).forget
    · refine obeys_query_bind hst₁ fun list hlist => obeys_change hst₁ fun st₂ hpush => ?_
      exact holds_push hst₁ ((hr.mono hle).admits_lookup hst₁ hlist) (hvalue st₁) hpush
  refine obeys_query_bind hst fun _ _ => ?_
  split
  · next ht =>
    simp only [if_pos ht] at hplace
    exact obeys_query_bind hst fun occupant _ => hplace occupant
  · next ht =>
    simp only [if_neg ht] at hplace
    exact hplace .null

theorem grow_obeys (hst : D.Holds st) {v : Value} (hv : D.Free st v) (target : Stage)
    (value : Text) : D.Obeys st (grow v target value) D.Free := by
  unfold grow
  cases v with
  | ref r =>
    refine obeys_query_bind hst fun n hn => ?_
    split
    · next attributes =>
      have hfixed : (st.node r).isFixed = false := by
        rw [Except.ok.inj hn]
        rfl
      exact (appendTo_obeys hst hv hfixed attributes target value).bind
        fun st₁ _ hst₁ hle _ => obeys_pure hst₁ (hv.mono hle)
    · exact obeys_callMissing hst _ _
  | null | bool | int | float | str | octets | stage | combinator =>
    exact obeys_callMissing hst _ _

theorem admits_builderConfig (hst : D.Holds st) {attributes : Attributes} {v : Value}
    (h : ∀ u ∈ attributes.values, D.Admits st u)
    (hv : Store.recordAttribute .builder (st.fields attributes) Name.config = .ok v) :
    D.Admits st v :=
  admits_recordAttribute (fun u hu => admits_fields hst h u (mem_of_get? hu)) hv

theorem start_obeys (hst : D.Holds st) {attributes : Attributes}
    (h : ∀ u ∈ attributes.values, D.Admits st u) (target : Stage) (value : Text) :
    D.Obeys st (start attributes target value) D.Free := by
  refine obeys_query_bind hst fun _ _ => obeys_query_bind hst fun _ _ => ?_
  refine obeys_query_bind hst fun config hconfig => ?_
  exact (newSelector_obeys hst (admits_builderConfig hst h hconfig)).bind
    fun st₁ v hst₁ _ hv => grow_obeys hst₁ hv target value

theorem append_obeys (hst : D.Holds st) {v : Value} (hv : D.Free st v) (target : Stage)
    (value : Text) : D.Obeys st (append v target value) D.Free := by
  unfold append
  cases v with
  | ref r =>
    refine obeys_query_bind hst fun n hn => ?_
    split
    · next attributes =>
      refine start_obeys hst (fun u hu => D.admits_of_mem hst (hv.2 r rfl) ?_) target value
      rw [Except.ok.inj hn]
      exact hu
    · exact grow_obeys hst hv target value
  | null | bool | int | float | str | octets | stage | combinator =>
    exact grow_obeys hst hv target value

/-! ### combining -/

theorem combinationOf_obeys (hst : D.Holds st) {left right pad : Value}
    (hleft : D.Admits st left) (hright : D.Admits st right) (hpad : D.Admits st pad)
    (combinator : Text) : D.Obeys st (combinationOf left combinator right pad) D.Free := by
  refine obeys_query_bind hst fun l hl => obeys_query_bind hst fun r hr => ?_
  exact newCombination_obeys hst (admits_renderValue hst hleft hl)
    (D.admits_scalar fun _ => Value.noConfusion) (admits_renderValue hst hright hr) hpad

theorem checkCombines_obeys (hst : D.Holds st) (v : Value) :
    D.Obeys st (checkCombines v) fun st' _ => st' = st := by
  refine obeys_query_bind hst fun isBuilder _ => ?_
  split
  · exact obeys_pure hst rfl
  · exact obeys_query_bind hst fun _ _ => obeys_pure hst rfl

theorem pad_ne_slot (stage : Stage) : Name.pad ≠ Name.slot stage := by
  cases stage <;> decide

theorem combine_obeys (hst : D.Holds st) {builder left right : Value}
    (hbuilder : D.Admits st builder) (hleft : D.Admits st left) (hright : D.Admits st right)
    (combinator : Text) : D.Obeys st (combine builder left combinator right) D.Free := by
  unfold combine
  cases builder with
  | ref b =>
    refine obeys_query_bind hst fun n hn => ?_
    split
    · next attributes =>
      have hall := admits_record hst hbuilder (Except.ok.inj hn) Kind.noConfusion
      refine obeys_query_bind hst fun _ _ => obeys_query_bind hst fun config hconfig => ?_
      have hconfig' := admits_builderConfig hst (fun u hu => hall u hu) hconfig
      refine obeys_query_bind hst fun pad hpad => ?_
      have hpad' := admits_lookup_of_ne_slot hst hconfig' pad_ne_slot hpad
      refine (combinationOf_obeys hst hleft hright hpad' combinator).bind fun st₁ c hst₁ _ hc => ?_
      refine obeys_query_bind hst₁ fun l _ => obeys_query_bind hst₁ fun r _ => ?_
      refine (obeys_note hst₁ _).bind ?_
      rintro _ _ _ _ rfl
      exact obeys_pure hst₁ hc
    · exact obeys_callMissing hst _ _
  | null | bool | int | float | str | octets | stage | combinator =>
    exact obeys_callMissing hst _ _

/-! ### reading -/

/-- The properties that answer with a copy stand for the lists of a selector. -/
theorem slot_of_listProperty {property hidden : Text}
    (h : Store.selectorProperties.lookup property = some hidden)
    (hlist : Store.listProperties.contains property = true) :
    ∃ stage, hidden = Name.slot stage := by
  have hmem : property ∈ Store.listProperties := List.contains_iff_mem.mp hlist
  simp only [Store.listProperties, List.mem_cons, List.not_mem_nil, or_false] at hmem
  rcases hmem with rfl | rfl | rfl
  · exact ⟨.styleClass, Option.some.inj (h.symm.trans (by decide))⟩
  · exact ⟨.attr, Option.some.inj (h.symm.trans (by decide))⟩
  · exact ⟨.pseudoClass, Option.some.inj (h.symm.trans (by decide))⟩

theorem exists_selector_of_property? {v : Value} {name hidden : Text}
    (h : st.property? v name = some hidden) :
    ∃ r attributes, v = .ref r ∧ st.node r = .record .selector attributes ∧
      Store.selectorProperties.lookup name = some hidden := by
  unfold Store.property? at h
  split at h
  · next r =>
    split at h
    · next attributes hn => exact ⟨r, attributes, rfl, hn, h⟩
    · cases h
  · cases h

/-- The items of a list that a selector keeps are admitted, whoever may open the selector. -/
theorem admits_slot_items (hst : D.Holds st) {r : Ref} (hr : D.Admits st (.ref r))
    {attributes : Attributes} (hn : st.node r = .record .selector attributes) {stage : Stage}
    {found : Value} {items : List Value}
    (hfound : st.lookup (.ref r) (Name.slot stage) = .ok found)
    (hitems : st.items found = .ok items) : ∀ u ∈ items, D.Admits st u := by
  by_cases hopen : D.Opens r
  · have hfree : D.Free st (.ref r) := ⟨hr, fun _ hq => Value.ref.inj hq ▸ hopen⟩
    exact admits_items hst (hfree.admits_lookup hst hfound) hitems
  · have hget : Fields.get? (Name.slot stage) (st.fields attributes) = some found := by
      simp only [Store.lookup, hn, Layout.reserved?_slot, Store.recordAttribute] at hfound
      split at hfound
      · next u hu => rw [hu, Except.ok.inj hfound]
      · cases hfound
    exact D.admits_copied hst hr hopen hn hget hitems

/-- A list that a selector answers with is a new one. -/
theorem getProperty_obeys (hst : D.Holds st) {v : Value} (hv : D.Admits st v)
    {name hidden : Text} (h : st.property? v name = some hidden) :
    D.Obeys st (getProperty v name hidden) fun st' u =>
      D.Free st v ∨ Store.listProperties.contains name = true → D.Admits st' u := by
  obtain ⟨r, attributes, rfl, hn, hproperty⟩ := exists_selector_of_property? h
  refine obeys_query_bind hst fun found hfound => ?_
  split
  · next hlist =>
    obtain ⟨stage, rfl⟩ := slot_of_listProperty hproperty hlist
    refine obeys_query_bind hst fun items hitems => ?_
    exact (obeys_alloc (n := .list items) hst (admits_slot_items hst hv hn hfound hitems)).mono
      fun _ _ _ _ hfree _ => hfree.1
  · next hlist =>
    refine obeys_pure hst fun hor => ?_
    rcases hor with hfree | hcontains
    · exact hfree.admits_lookup hst hfound
    · exact absurd hcontains hlist

/-- What is answered as a whole, or the values in what is made for the answer. -/
def wholeValues : Store.Whole → List Value
  | .standing r => [.ref r]
  | .made n => n.values

theorem admits_wholeTable {attributes : Attributes}
    (h : ∀ u ∈ attributes.values, D.Admits st u) :
    ∀ u ∈ wholeValues (st.wholeTable attributes), D.Admits st u := by
  cases attributes with
  | own fields =>
    intro u hu
    obtain ⟨entry, hentry, hu⟩ := mem_entryValues.mp hu
    rw [Store.entries_own] at hentry
    obtain ⟨field, hfield, rfl⟩ := List.mem_map.mp hentry
    rcases hu with rfl | rfl
    · exact D.admits_scalar fun _ => Value.noConfusion
    · exact h _ (List.mem_map.mpr ⟨field, hfield, rfl⟩)
  | shared table => exact h

theorem admits_wholeArguments {core : ErrorCore} (h : ∀ u ∈ core.values, D.Admits st u) :
    ∀ u ∈ wholeValues (Store.wholeArguments core), D.Admits st u := by
  intro u hu
  refine h u (List.mem_append_left _ ?_)
  unfold Store.wholeArguments at hu
  cases ha : core.arguments with
  | none =>
    rw [ha] at hu
    cases hu
  | some q =>
    rw [ha] at hu
    exact hu

theorem admits_whole (hst : D.Holds st) {v : Value} (hv : D.Admits st v) {name : Text}
    (hfree : D.Free st v ∨ name ≠ Name.attributeTable) {whole : Store.Whole}
    (h : st.whole? v name = some whole) : ∀ u ∈ wholeValues whole, D.Admits st u := by
  cases v with
  | ref r =>
    unfold Store.whole? at h
    cases hn : st.node r with
    | record kind attributes =>
      simp only [hn] at h
      split at h
      · next hname =>
        have hopen : D.Opens r := (hfree.resolve_right fun hne => hne hname).2 r rfl
        cases h
        exact admits_wholeTable fun u hu =>
          D.admits_of_mem hst hopen (by rw [hn]; exact List.mem_append_right _ hu)
      · split at h
        · next k core =>
          have hread := admits_record hst hv hn Kind.noConfusion
          split at h
          · cases h
            exact admits_wholeArguments fun u hu => hread u (List.mem_append_left _ hu)
          · cases h
        · cases h
    | list _ | tuple _ | set _ | table _ | point _ _ | sealed =>
      simp only [hn] at h
      cases h
  | null | bool | int | float | str | octets | stage | combinator => cases h

theorem getWhole_obeys (hst : D.Holds st) {v : Value} (hv : D.Admits st v) {name : Text}
    (hfree : D.Free st v ∨ name ≠ Name.attributeTable) :
    D.Obeys st (getWhole v name) fun st' u => D.Free st v → D.Admits st' u := by
  refine obeys_query_bind hst fun whole hwhole => ?_
  have hread : ∀ w, whole = some w → ∀ u ∈ wholeValues w, D.Admits st u := fun w hw =>
    admits_whole hst hv hfree ((Except.ok.inj hwhole).trans hw)
  cases whole with
  | none =>
    exact obeys_query hst fun u hu hv => hv.admits_lookup hst hu
  | some whole =>
    cases whole with
    | standing r => exact obeys_pure hst fun _ => hread _ rfl _ List.mem_cons_self
    | made n => exact (obeys_alloc hst (hread _ rfl)).mono fun _ _ _ _ h _ => h.1

/-- What is answered for a name. The answer can be put elsewhere if the object is open or the name
leads to a copy. -/
theorem get_obeys (hst : D.Holds st) {v : Value} (hv : D.Admits st v) {name : Text}
    (hfree : D.Free st v ∨ name ≠ Name.attributeTable) :
    D.Obeys st (get v name) fun st' u =>
      D.Free st v ∨ (st.property? v name).isSome ∧ Store.listProperties.contains name = true →
        D.Admits st' u := by
  refine obeys_query_bind hst fun hidden hhidden => ?_
  cases hidden with
  | none =>
    refine (getWhole_obeys hst hv hfree).mono fun _ _ _ _ h hor => h (hor.resolve_right ?_)
    rw [Except.ok.inj hhidden]
    simp
  | some hidden =>
    exact (getProperty_obeys hst hv (Except.ok.inj hhidden)).mono
      fun _ _ _ _ h hor => h (hor.imp_right And.right)

/-! ### portraits -/

theorem documentOf_obeys (hst : D.Holds st) (v : Value) :
    D.Obeys st (Session.documentOf v) fun _ _ => True :=
  obeys_query hst fun _ _ => trivial

theorem documentsOf_obeys (hst : D.Holds st) (v : Value) :
    D.Obeys st (Session.documentsOf v) fun _ _ => True :=
  obeys_query_bind hst fun _ _ => obeys_query hst fun _ _ => trivial

theorem stageName_obeys (hst : D.Holds st) (v : Value) :
    D.Obeys st (Session.stageName v) fun _ _ => True := by
  unfold Session.stageName
  split
  · exact obeys_pure hst trivial
  · refine obeys_query_bind hst fun found _ => ?_
    split <;> exact obeys_pure hst trivial

/-- A value that is asked for a property, and then something is made of the answer. -/
theorem get_bind_obeys {f : Value → Effect α} {g : α → Effect β} {v : Value}
    (hst : D.Holds st) (hv : D.Admits st v) {name : Text} (hname : name ≠ Name.attributeTable)
    (hf : ∀ st' u, D.Holds st' → D.Obeys st' (f u) fun _ _ => True)
    (hg : ∀ st' a, D.Holds st' → D.Admits st' v → D.Obeys st' (g a) fun _ _ => True) :
    D.Obeys st (get v name >>= fun u => f u >>= g) fun _ _ => True := by
  refine (get_obeys hst hv (Or.inr hname)).bind fun st₁ u hst₁ h₁ _ => ?_
  exact (hf st₁ u hst₁).bind fun st₂ a hst₂ h₂ _ =>
    hg st₂ a hst₂ (D.admits_mono (Nat.le_trans h₁ h₂) hv)

theorem portrait_obeys (hst : D.Holds st) {v : Value} (hv : D.Admits st v) :
    D.Obeys st (Session.portrait v) fun _ _ => True := by
  refine get_bind_obeys hst hv (by decide) (fun _ u h => stageName_obeys h u) ?_
  intro st₁ stage hst₁ hv₁
  refine get_bind_obeys hst₁ hv₁ (by decide) (fun _ u h => documentOf_obeys h u) ?_
  intro st₂ element hst₂ hv₂
  refine get_bind_obeys hst₂ hv₂ (by decide) (fun _ u h => documentOf_obeys h u) ?_
  intro st₃ id hst₃ hv₃
  refine get_bind_obeys hst₃ hv₃ (by decide) (fun _ u h => documentsOf_obeys h u) ?_
  intro st₄ classes hst₄ hv₄
  refine get_bind_obeys hst₄ hv₄ (by decide) (fun _ u h => documentsOf_obeys h u) ?_
  intro st₅ attributes hst₅ hv₅
  refine get_bind_obeys hst₅ hv₅ (by decide) (fun _ u h => documentsOf_obeys h u) ?_
  intro st₆ pseudoClasses hst₆ hv₆
  refine get_bind_obeys hst₆ hv₆ (by decide) (fun _ u h => documentOf_obeys h u) ?_
  intro st₇ pseudoElement hst₇ hv₇
  refine obeys_query_bind hst₇ fun text _ => obeys_query_bind hst₇ fun _ _ => ?_
  exact obeys_pure hst₇ trivial

/-! ### products -/

def sequenceValues : Store.Sequence → List Value
  | .list items | .tuple items => items
  | .text _ | .octets _ => []

theorem repeated_made (hst : D.Holds st) {s : Store.Sequence}
    (hs : ∀ v ∈ sequenceValues s, D.Admits st v) {count : Int} {v : Value}
    (h : s.repeated st count = .ok (v, st')) : D.Made st v st' := by
  have hcopies : ∀ {n : Nat} {items : List Value}, (∀ u ∈ items, D.Admits st u) →
      ∀ u ∈ (List.replicate n items).flatten, D.Admits st u := by
    intro n items hall u hu
    obtain ⟨copy, hcopy, hu⟩ := List.mem_flatten.mp hu
    rw [List.eq_of_mem_replicate hcopy] at hu
    exact hall u hu
  unfold Store.Sequence.repeated at h
  simp only at h
  split at h
  · cases h
  · generalize (if s.length = 0 then 0 else count.toNat) = n at h
    split at h
    · split at h <;> cases h
    · split at h
      · cases h
      · split at h
        · cases h
          exact made_self hst (D.admits_scalar fun _ => Value.noConfusion)
        · cases h
          exact made_self hst (D.admits_scalar fun _ => Value.noConfusion)
        · cases h
          exact made_alloc hst (hcopies hs)
        · cases h
          exact made_alloc hst (hcopies hs)

theorem admits_sequence (hst : D.Holds st) {v : Value} (hv : D.Admits st v) {s : Store.Sequence}
    (h : st.asSequence? v = some s) : ∀ u ∈ sequenceValues s, D.Admits st u := by
  have hnone : ∀ u ∈ ([] : List Value), D.Admits st u := fun u hu => absurd hu List.not_mem_nil
  cases v with
  | ref r =>
    have hread : (∀ attributes, st.node r ≠ .record .selector attributes) →
        ∀ u ∈ (st.node r).values, D.Admits st u := fun hne u hu =>
      D.admits_of_mem hst (D.opens_of_ne_selector hst hv hne) hu
    unfold Store.asSequence? at h
    cases hn : st.node r with
    | list items | tuple items =>
      rw [hn] at hread
      simp only [hn] at h
      cases h
      exact hread fun _ => Node.noConfusion
    | set _ | table _ | record _ _ | point _ _ | sealed =>
      simp only [hn] at h
      cases h
  | str | combinator | octets =>
    cases h
    exact hnone
  | null | bool | int | float | stage => cases h

theorem repeatBy_made (hst : D.Holds st) {s : Store.Sequence}
    (hs : ∀ v ∈ sequenceValues s, D.Admits st v) {count v : Value}
    (h : st.repeatBy s count = .ok (v, st')) : D.Made st v st' := by
  unfold Store.repeatBy at h
  split at h
  · exact repeated_made hst hs h
  · cases h

theorem numberProduct?_ne_ref {a b v : Value} (h : Store.numberProduct? a b = some (.ok v))
    (r : Ref) : v ≠ .ref r := by
  rintro rfl
  unfold Store.numberProduct? at h
  split at h
  · cases h
  · split at h
    · next x y _ _ =>
      cases x with
      | error _ => cases h
      | ok x =>
        cases y with
        | error _ => cases h
        | ok y => cases h
    · cases h

theorem product_made (hst : D.Holds st) {a b v : Value} (ha : D.Admits st a) (hb : D.Admits st b)
    (h : st.product a b = .ok (v, st')) : D.Made st v st' := by
  unfold Store.product at h
  split at h
  · next product hproduct =>
    cases product with
    | error _ => cases h
    | ok u =>
      cases h
      exact made_self hst (D.admits_scalar (numberProduct?_ne_ref hproduct))
  · split at h
    · next s hs => exact repeatBy_made hst (admits_sequence hst ha hs) h
    · next s _ hs => exact repeatBy_made hst (admits_sequence hst hb hs) h
    · cases h

theorem area_made (hst : D.Holds st) {v u : Value} (hv : D.Admits st v)
    (h : st.area v = .ok (u, st')) : D.Made st u st' := by
  unfold Store.area at h
  cases v with
  | ref r =>
    cases hn : st.node r with
    | record kind attributes =>
      simp only [hn] at h
      cases kind with
      | rectangle =>
        have hall := admits_record hst hv hn Kind.noConfusion
        have hread : ∀ {name w}, Store.recordAttribute .rectangle (st.fields attributes) name
            = .ok w → D.Admits st w := fun hw => admits_recordAttribute
          (fun w hw => admits_fields hst hall w (mem_of_get? hw)) hw
        simp only [bind, Except.bind] at h
        split at h
        · cases h
        · split at h
          · cases h
          · next width hwidth =>
            split at h
            · cases h
            · next height hheight => exact product_made hst (hread hwidth) (hread hheight) h
      | plain | fixed | config | combination | selector | builder | error _ _ =>
        exact absurd h Store.callMissing_ne_ok
    | list _ | tuple _ | set _ | table _ | point _ _ | sealed =>
      simp only [hn] at h
      exact absurd h Store.callMissing_ne_ok
  | null | bool | int | float | str | octets | stage | combinator =>
    exact absurd h Store.callMissing_ne_ok

end Policy

end SelectorForge
