import SelectorForge.Proofs.Json.Members
import SelectorForge.Proofs.Store.Revival
import SelectorForge.Store.Product
import SelectorForge.Store.Selector

/-!
# Policies

What is done to a store is made of few moves: a node is added, a value is read from a node or put
into one, a member of an enumeration is given something. A policy says which values may be moved and
which nodes may be opened, and it names a property of stores that such moves keep:

* `Node.values`      the values in a node;
* `Node.isFixed`     nodes that cannot be changed;
* `Node.Becomes`     what the others can become;
* `Policy`           what is admitted, what is open, and what holds as long as both are respected;
* `Policy.Obeys`     an effect that respects a policy, with what it answers;
* `Policy.*_obeys`   the operations of selectors, builders and combinations, and assignments.

Only a selector can be admitted without being open: then it can be handed around, but what it holds
stays with it.
-/

namespace SelectorForge

/-! ### what nodes hold -/

def ErrorCore.values (core : ErrorCore) : List Value :=
  (core.arguments.map Value.ref).toList ++ core.further.map Prod.snd

def Kind.values : Kind → List Value
  | .error _ core => core.values
  | _ => []

def Attributes.values : Attributes → List Value
  | .own fields => fields.map Prod.snd
  | .shared table => [.ref table]

/-- The keys and the values of entries. -/
def entryValues (entries : List (Value × Value)) : List Value :=
  entries.flatMap fun (key, value) => [key, value]

def Node.values : Node → List Value
  | .list items | .tuple items | .set items => items
  | .table entries => entryValues entries
  | .record kind attributes => kind.values ++ attributes.values
  | .point x y => x.toList ++ y.toList
  | .sealed => []

/-- Nodes that stay as they are made. -/
def Node.isFixed : Node → Bool
  | .tuple _ | .set _ | .sealed => true
  | .record kind _ => kind.isFrozen
  | .list _ | .table _ | .point _ _ => false

/-- What a node can become: a container and what stands in two places are refilled, an object that is
not frozen gets other attributes. -/
inductive Node.Becomes : Node → Node → Prop
  | list (items items' : List Value) : Becomes (.list items) (.list items')
  | table (entries entries' : List (Value × Value)) : Becomes (.table entries) (.table entries')
  | record {kind : Kind} (h : kind.isFrozen = false) (kind' : Kind)
    (attributes attributes' : Attributes) :
    Becomes (.record kind attributes) (.record kind' attributes')
  | point (x y x' y' : Option Value) : Becomes (.point x y) (.point x' y')

theorem Node.Becomes.isFixed_eq_false {n n' : Node} (h : n.Becomes n') : n.isFixed = false := by
  cases h with
  | record h _ _ _ => exact h
  | list _ _ | table _ _ | point _ _ _ _ => rfl

theorem mem_entryValues {entries : List (Value × Value)} {v : Value} :
    v ∈ entryValues entries ↔ ∃ e ∈ entries, v = e.1 ∨ v = e.2 := by
  simp [entryValues]

theorem entryValues_cons (key value : Value) (entries : List (Value × Value)) :
    entryValues ((key, value) :: entries) = key :: value :: entryValues entries := rfl

/-! ### policies -/

/-- The values that may be moved, the nodes that may be opened, and what holds all the while. -/
structure Policy where
  Holds : Store → Prop
  Admits : Store → Value → Prop
  Opens : Ref → Prop
  admits_scalar : ∀ {st v}, (∀ r, v ≠ .ref r) → Admits st v
  admits_mono : ∀ {st st' v}, st.size ≤ st'.size → Admits st v → Admits st' v
  admits_new : ∀ {st st'}, Holds st → st.size < st'.size → Admits st' (.ref st.size)
  opens_new : ∀ {st}, Holds st → Opens st.size
  opens_of_ne_selector : ∀ {st r}, Holds st → Admits st (.ref r) →
    (∀ attributes, st.node r ≠ .record .selector attributes) → Opens r
  admits_of_mem : ∀ {st r v}, Holds st → Opens r → v ∈ (st.node r).values → Admits st v
  admits_attribute : ∀ {st r attributes name v}, Holds st → Admits st (.ref r) → ¬ Opens r →
    st.node r = .record .selector attributes → (∀ stage, name ≠ Name.slot stage) →
    Fields.get? name (st.fields attributes) = some v → Admits st v
  admits_copied : ∀ {st r attributes stage v vs}, Holds st → Admits st (.ref r) → ¬ Opens r →
    st.node r = .record .selector attributes →
    Fields.get? (Name.slot stage) (st.fields attributes) = some v → st.items v = .ok vs →
    ∀ u ∈ vs, Admits st u
  admits_given : ∀ {st member v}, Holds st → v ∈ (st.givenTo member).map Prod.snd → Admits st v
  holds_alloc : ∀ {st n}, Holds st → (∀ v ∈ n.values, Admits st v) → Holds (st.alloc n).2
  holds_write : ∀ {st r n}, Holds st → Opens r → (st.node r).Becomes n →
    (∀ v ∈ n.values, Admits st v) → Holds (st.write r n)
  holds_give : ∀ {st member fields}, Holds st → (∀ v ∈ fields.map Prod.snd, Admits st v) →
    Holds (st.give member fields)

namespace Fields

theorem mem_update {α : Type} {fields members : Fields α} {m : Text × α}
    (h : m ∈ update fields members) : m ∈ fields ∨ m ∈ members := by
  induction members generalizing fields with
  | nil => exact Or.inl h
  | cons first members ih =>
    obtain ⟨name, value⟩ := first
    rw [update_cons] at h
    rcases ih h with h | h
    · rcases mem_put h with rfl | h
      · exact Or.inr List.mem_cons_self
      · exact Or.inl h
    · exact Or.inr (List.mem_cons_of_mem _ h)

theorem mem_of_get? {α : Type} {name : Text} {v : α} {fields : Fields α}
    (h : get? name fields = some v) : (name, v) ∈ fields := by
  induction fields with
  | nil => cases h
  | cons field fields ih =>
    obtain ⟨n, u⟩ := field
    rw [get?_cons] at h
    split at h
    · next hn =>
      cases h
      rw [hn]
      exact List.mem_cons_self
    · exact List.mem_cons_of_mem _ (ih h)

end Fields

/-- Nothing can be called that is not there. -/
theorem Store.callMissing_ne_ok {st : Store} {α : Type} {v : Value} {name : Text} {a : α} :
    st.callMissing v name ≠ .ok a := by
  unfold Store.callMissing
  cases st.lookup v name <;> exact fun h => nomatch h

namespace Policy

variable {D : Policy} {st st' : Store}

/-- A value that may be moved and, if it leads to a node, opened. -/
def Free (D : Policy) (st : Store) (v : Value) : Prop := D.Admits st v ∧ ∀ r, v = .ref r → D.Opens r

theorem Free.mono {v : Value} (h : D.Free st v) (hs : st.size ≤ st'.size) : D.Free st' v :=
  ⟨D.admits_mono hs h.1, h.2⟩

/-! ### what is read -/

theorem admits_tableEntries (hst : D.Holds st) {r : Ref} (h : D.Admits st (.ref r)) :
    ∀ v ∈ entryValues (st.tableEntries r), D.Admits st v := by
  intro v hv
  unfold Store.tableEntries at hv
  cases hn : st.node r with
  | table entries =>
    rw [hn] at hv
    have ho := D.opens_of_ne_selector hst h fun _ hs => by rw [hn] at hs; cases hs
    exact D.admits_of_mem hst ho (by rw [hn]; exact hv)
  | list _ | tuple _ | set _ | record _ _ | point _ _ | sealed =>
    rw [hn] at hv
    cases hv

theorem admits_fields (hst : D.Holds st) {attributes : Attributes}
    (h : ∀ v ∈ attributes.values, D.Admits st v) :
    ∀ v ∈ (st.fields attributes).map Prod.snd, D.Admits st v := by
  cases attributes with
  | own fields => exact h
  | shared table =>
    intro v hv
    obtain ⟨field, hfield, rfl⟩ := List.mem_map.mp hv
    rw [Store.fields_shared] at hfield
    obtain ⟨entry, hentry, hnamed⟩ := List.mem_filterMap.mp hfield
    obtain ⟨name, _, rfl⟩ := Option.map_eq_some_iff.mp hnamed
    have htable := admits_tableEntries hst (h (.ref table) List.mem_cons_self)
    exact htable entry.2 (mem_entryValues.mpr ⟨entry, hentry, Or.inr rfl⟩)

theorem mem_of_get? {name : Text} {v : Value} {fields : Fields Value}
    (h : Fields.get? name fields = some v) : v ∈ fields.map Prod.snd :=
  List.mem_map.mpr ⟨(name, v), Fields.mem_of_get? h, rfl⟩

theorem default?_ne_ref {kind : Kind} {name : Text} {v : Value}
    (h : kind.default? name = some v) (r : Ref) : v ≠ .ref r := by
  rintro rfl
  unfold Kind.default? at h
  split at h
  · split at h
    · cases h
    · split at h <;> cases h
  · split at h <;> cases h
  · cases h

/-- What a record answers, if its attributes are admitted. -/
theorem admits_recordAttribute {kind : Kind} {fields : Fields Value} {name : Text} {v : Value}
    (hfields : ∀ u, Fields.get? name fields = some u → D.Admits st u)
    (h : Store.recordAttribute kind fields name = .ok v) : D.Admits st v := by
  unfold Store.recordAttribute at h
  split at h
  · next u hu =>
    cases h
    exact hfields _ hu
  · split at h
    · next u hu =>
      cases h
      exact D.admits_scalar (default?_ne_ref hu)
    · cases h

theorem admits_reserved {kind : Kind} {name : Text} {v : Value}
    (hkind : ∀ u ∈ kind.values, D.Admits st u) (h : kind.reserved? name = some v) :
    D.Admits st v := by
  have hnull : D.Admits st .null := D.admits_scalar fun _ => Value.noConfusion
  have hfalse : D.Admits st (.bool false) := D.admits_scalar fun _ => Value.noConfusion
  unfold Kind.reserved? at h
  split at h
  · cases h
    exact hnull
  · split at h
    · next core =>
      have hfurther : ∀ u, Fields.get? name core.further = some u → D.Admits st u := fun u hu =>
        hkind u (List.mem_append_right _ (mem_of_get? hu))
      split at h
      · cases hg : Fields.get? name core.further with
        | none =>
          rw [hg] at h
          cases h
          exact hnull
        | some u =>
          rw [hg] at h
          cases h
          exact hfurther _ hg
      · split at h
        · cases hg : Fields.get? name core.further with
          | none =>
            rw [hg] at h
            cases h
            exact hfalse
          | some u =>
            rw [hg] at h
            cases h
            exact hfurther _ hg
        · cases h
    · cases h

/-- A record that is no selector is open, so what it holds is admitted. -/
theorem admits_record (hst : D.Holds st) {r : Ref} (hr : D.Admits st (.ref r)) {kind : Kind}
    {attributes : Attributes} (hn : st.node r = .record kind attributes) (hk : kind ≠ .selector) :
    ∀ v ∈ (Node.record kind attributes).values, D.Admits st v := by
  have ho := D.opens_of_ne_selector hst hr fun _ hs => by
    rw [hn] at hs
    exact hk (Node.record.inj hs).1
  intro v hv
  exact D.admits_of_mem hst ho (by rw [hn]; exact hv)

theorem admits_memberTable (hst : D.Holds st) {v : Value} (hv : ∀ r, v ≠ .ref r) :
    ∀ u ∈ (st.memberTable v).map Prod.snd, D.Admits st u := by
  intro u hu
  obtain ⟨field, hfield, rfl⟩ := List.mem_map.mp hu
  rcases Fields.mem_update hfield with h | h
  · refine D.admits_scalar fun r hr => ?_
    cases v with
    | stage s =>
      simp only [Store.memberFields, List.mem_cons, List.not_mem_nil, or_false] at h
      rcases h with rfl | rfl | rfl <;> cases hr
    | combinator c =>
      simp only [Store.memberFields, List.mem_cons, List.not_mem_nil, or_false] at h
      rcases h with rfl | rfl | rfl <;> cases hr
    | null | bool | int | float | str | octets | ref => cases h
  · exact D.admits_given hst (List.mem_map.mpr ⟨field, h, rfl⟩)

theorem memberAttribute?_ne_ref {v u : Value} {name : Text}
    (h : Store.memberAttribute? v name = some u) (r : Ref) : u ≠ .ref r := by
  rintro rfl
  unfold Store.memberAttribute? at h
  split at h
  · split at h
    · cases h
    · split at h
      · cases h
      · split at h <;> cases h
  · split at h
    · cases h
    · split at h
      · cases h
      · split at h <;> cases h
  · cases h

theorem numberPart?_ne_ref {v u : Value} {name : Text}
    (h : Store.numberPart? v name = some u) (r : Ref) : u ≠ .ref r := by
  rintro rfl
  unfold Store.numberPart? at h
  split at h
  · split at h
    · cases h
    · split at h <;> cases h
  · split at h
    · cases h
    · split at h
      · cases h
      · split at h <;> cases h
  · cases h

theorem sibling?_ne_ref {v u : Value} {name : Text} (h : Store.sibling? v name = some u)
    (r : Ref) : u ≠ .ref r := by
  rintro rfl
  unfold Store.sibling? at h
  split at h
  · obtain ⟨_, _, he⟩ := Option.map_eq_some_iff.mp h
    cases he
  · obtain ⟨_, _, he⟩ := Option.map_eq_some_iff.mp h
    cases he
  · cases h

/-- What a value without a node answers. -/
theorem admits_lookup_scalar (hst : D.Holds st) {v u : Value} {name : Text}
    (hv : ∀ r, v ≠ .ref r) (h : st.lookup v name = .ok u) : D.Admits st u := by
  unfold Store.lookup at h
  simp only at h
  -- the value leads to no node, so only the other branch is left
  split at h
  · next w hw =>
    cases h
    rcases Option.or_eq_some_iff.mp hw with hw | ⟨_, hw⟩
    · exact D.admits_scalar (memberAttribute?_ne_ref hw)
    · exact D.admits_scalar (numberPart?_ne_ref hw)
  · split at h
    · next w hw =>
      cases h
      rcases Option.or_eq_some_iff.mp hw with hw | ⟨_, hw⟩
      · exact admits_memberTable hst hv _ (mem_of_get? hw)
      · exact D.admits_scalar (sibling?_ne_ref hw)
    · cases h

/-- What a value answers for a name is admitted, unless it is in the place of a fragment. -/
theorem admits_lookup (hst : D.Holds st) {v u : Value} {name : Text} (hv : D.Admits st v)
    (hselector : ∀ r attributes w, v = .ref r → st.node r = .record .selector attributes →
      Fields.get? name (st.fields attributes) = some w → D.Admits st w)
    (h : st.lookup v name = .ok u) : D.Admits st u := by
  cases v with
  | ref r =>
    unfold Store.lookup at h
    cases hn : st.node r with
    | record kind attributes =>
      simp only [hn] at h
      by_cases hk : kind = .selector
      · rw [hk] at h hn
        have hread : ∀ w, Kind.reserved? .selector name = some w → D.Admits st w := fun w hw =>
          admits_reserved (fun _ hu => absurd hu List.not_mem_nil) hw
        split at h
        · next w hw =>
          cases h
          exact hread _ hw
        · exact admits_recordAttribute (fun w hw => hselector r attributes w rfl hn hw) h
      · have hall := admits_record hst hv hn hk
        split at h
        · next w hw =>
          cases h
          exact admits_reserved (fun u hu => hall u (List.mem_append_left _ hu)) hw
        · refine admits_recordAttribute (fun w hw => ?_) h
          exact admits_fields hst (fun u hu => hall u (List.mem_append_right _ hu)) w
            (mem_of_get? hw)
    | point x y =>
      simp only [hn] at h
      have ho := D.opens_of_ne_selector hst hv fun _ hs => by rw [hn] at hs; cases hs
      have hall : ∀ w ∈ (Node.point x y).values, D.Admits st w := fun w hw =>
        D.admits_of_mem hst ho (by rw [hn]; exact hw)
      split at h
      · next w hw =>
        cases h
        split at hw
        · exact hall _ (List.mem_append_left _ (Option.mem_toList.mpr hw))
        · split at hw
          · exact hall _ (List.mem_append_right _ (Option.mem_toList.mpr hw))
          · cases hw
      · cases h
    | list _ | tuple _ | set _ | table _ | sealed =>
      simp only [hn] at h
      cases h
  | null | bool | int | float | str | octets | stage | combinator =>
    exact admits_lookup_scalar hst (fun _ => Value.noConfusion) h

theorem Free.admits_lookup (hst : D.Holds st) {v u : Value} {name : Text} (hv : D.Free st v)
    (h : st.lookup v name = .ok u) : D.Admits st u := by
  refine Policy.admits_lookup hst hv.1 (fun r attributes w hr hn hw => ?_) h
  have hall : ∀ w ∈ attributes.values, D.Admits st w := fun w hw =>
    D.admits_of_mem hst (hv.2 r hr) (by rw [hn]; exact List.mem_append_right _ hw)
  exact admits_fields hst hall w (mem_of_get? hw)

theorem admits_lookup_of_ne_slot (hst : D.Holds st) {v u : Value} {name : Text}
    (hv : D.Admits st v) (hname : ∀ stage, name ≠ Name.slot stage)
    (h : st.lookup v name = .ok u) : D.Admits st u := by
  by_cases hfree : ∀ r, v = .ref r → D.Opens r
  · exact Free.admits_lookup hst ⟨hv, hfree⟩ h
  · obtain ⟨r, rfl, hr⟩ : ∃ r, v = .ref r ∧ ¬ D.Opens r := by
      simpa only [not_forall, exists_prop] using hfree
    refine admits_lookup hst hv (fun r' attributes w hr' hn hw => ?_) h
    cases hr'
    exact D.admits_attribute hst hv hr hn hname hw

theorem admits_items (hst : D.Holds st) {v : Value} {vs : List Value} (hv : D.Admits st v)
    (h : st.items v = .ok vs) : ∀ u ∈ vs, D.Admits st u := by
  cases v with
  | ref r =>
    unfold Store.items at h
    have hread : (∀ attributes, st.node r ≠ .record .selector attributes) →
        ∀ u ∈ (st.node r).values, D.Admits st u := fun hne u hu =>
      D.admits_of_mem hst (D.opens_of_ne_selector hst hv hne) hu
    cases hn : st.node r with
    | list items | tuple items | set items =>
      rw [hn] at hread
      simp only [hn] at h
      cases h
      exact hread fun _ => Node.noConfusion
    | table entries =>
      rw [hn] at hread
      simp only [hn] at h
      cases h
      intro u hu
      obtain ⟨e, he, rfl⟩ := List.mem_map.mp hu
      exact hread (fun _ => Node.noConfusion) _ (mem_entryValues.mpr ⟨e, he, Or.inl rfl⟩)
    | record _ _ | point _ _ | sealed =>
      simp only [hn] at h
      cases h
  | str t =>
    cases h
    intro u hu
    obtain ⟨c, _, rfl⟩ := List.mem_map.mp hu
    exact D.admits_scalar fun _ => Value.noConfusion
  | octets bytes =>
    cases h
    intro u hu
    obtain ⟨b, _, rfl⟩ := List.mem_map.mp hu
    exact D.admits_scalar fun _ => Value.noConfusion
  | combinator c =>
    cases h
    intro u hu
    obtain ⟨b, _, rfl⟩ := List.mem_map.mp hu
    exact D.admits_scalar fun _ => Value.noConfusion
  | null | bool | int | float | stage => cases h

/-- The text of a value is admitted; only an object with a fixed text can answer a node. -/
theorem admits_rendered (hst : D.Holds st) {fuel : Nat} {path : List Ref} {v u : Value}
    (hv : D.Admits st v) (h : st.rendered fuel path v = .ok u) : D.Admits st u := by
  have hstr : ∀ {x : Except Fault Text}, x.map Value.str = .ok u → D.Admits st u := by
    intro x hx
    cases x with
    | error e => cases hx
    | ok t =>
      cases hx
      exact D.admits_scalar fun _ => Value.noConfusion
  unfold Store.rendered at h
  split at h
  · cases h
  cases v with
  | ref r =>
    cases hn : st.node r with
    | record kind attributes =>
      simp only [hn] at h
      cases kind with
      | selector | combination =>
        simp only [bind, Except.bind] at h
        split at h
        · cases h
        · exact hstr h
      | fixed =>
        simp only [bind, Except.bind] at h
        split at h
        · cases h
        · refine admits_recordAttribute (fun w hw => ?_) h
          have hall := admits_record hst hv hn Kind.noConfusion
          exact admits_fields hst (fun u hu => hall u (List.mem_append_right _ hu)) w
            (mem_of_get? hw)
      | plain | rectangle | config | builder | error _ _ => exact absurd h Store.callMissing_ne_ok
    | list _ | tuple _ | set _ | table _ | point _ _ | sealed =>
      simp only [hn] at h
      exact absurd h Store.callMissing_ne_ok
  | null | bool | int | float | str | octets | stage | combinator =>
    exact absurd h Store.callMissing_ne_ok

theorem admits_renderValue (hst : D.Holds st) {v u : Value} (hv : D.Admits st v)
    (h : st.renderValue v = .ok u) : D.Admits st u := admits_rendered hst hv h

end Policy

end SelectorForge
