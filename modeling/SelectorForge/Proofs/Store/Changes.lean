import SelectorForge.Proofs.Store.Policy

/-!
# Changes that keep to a policy

A change of a store keeps to a policy as long as what is put into a node is admitted and the node is
open:

* `Policy.holds_assign`            past all guards;
* `Policy.holds_setAttribute`      an assignment, with what it makes besides;
* `Policy.holds_deleteAttribute`   a deletion;
* `Policy.holds_push`              one more item for a list, which needs no permission of its own.
-/

namespace SelectorForge

namespace Store

/-- Whether a node can be changed does not change. -/
theorem isFixed_changeAttributes (st : Store) (r r' : Ref)
    (onFields : Fields Value → Fields Value)
    (onEntries : List (Value × Value) → List (Value × Value)) :
    ((st.changeAttributes r onFields onEntries).node r').isFixed = (st.node r').isFixed := by
  have hwrite : ∀ (q : Ref) (n : Node), n.isFixed = (st.node q).isFixed → st.node q ≠ .sealed →
      ((st.write q n).node r').isFixed = (st.node r').isFixed := by
    intro q n hn hne
    by_cases hq : q = r'
    · rw [← hq, node_write_self _ _ (lt_size_of_node_ne hne), hn]
    · rw [node_write_of_ne _ _ hq]
  unfold changeAttributes
  cases hn : st.node r with
  | record kind attributes =>
    cases attributes with
    | own fields => exact hwrite r _ (by rw [hn]; rfl) (by rw [hn]; exact Node.noConfusion)
    | shared table =>
      cases ht : st.node table with
      | table entries =>
        simp only [ht]
        exact hwrite table _ (by rw [ht]; rfl) (by rw [ht]; exact Node.noConfusion)
      | list _ | tuple _ | set _ | record _ _ | point _ _ | sealed =>
        simp only [ht]
  | list _ | tuple _ | set _ | table _ | point _ _ | sealed => rfl

theorem mem_values_putNamed {name : Text} {value v : Value} {entries : List (Value × Value)}
    (h : v ∈ entryValues (putNamed name value entries)) :
    v = .str name ∨ v = value ∨ v ∈ entryValues entries := by
  induction entries with
  | nil => simpa [putNamed, entryValues] using h
  | cons entry rest ih =>
    obtain ⟨key, u⟩ := entry
    unfold putNamed at h
    split at h
    · rw [entryValues_cons, List.mem_cons, List.mem_cons] at h
      rw [entryValues_cons, List.mem_cons, List.mem_cons]
      rcases h with h | h | h
      · exact Or.inr (Or.inr (Or.inl h))
      · exact Or.inr (Or.inl h)
      · exact Or.inr (Or.inr (Or.inr (Or.inr h)))
    · rw [entryValues_cons, List.mem_cons, List.mem_cons] at h
      rw [entryValues_cons, List.mem_cons, List.mem_cons]
      rcases h with h | h | h
      · exact Or.inr (Or.inr (Or.inl h))
      · exact Or.inr (Or.inr (Or.inr (Or.inl h)))
      · exact (ih h).imp_right (Or.imp_right fun h => Or.inr (Or.inr h))

theorem sublist_eraseNamed (name : Text) (entries : List (Value × Value)) :
    (eraseNamed name entries).Sublist entries := by
  induction entries with
  | nil => exact .slnil
  | cons entry rest ih =>
    unfold eraseNamed
    split
    · exact List.sublist_cons_self _ _
    · exact ih.cons_cons _

end Store

theorem Fields.sublist_erase {α : Type} (name : Text) (fields : Fields α) :
    (Fields.erase name fields).Sublist fields := by
  induction fields with
  | nil => exact .slnil
  | cons field rest ih =>
    unfold Fields.erase
    split
    · exact List.sublist_cons_self _ _
    · exact ih.cons_cons _

namespace Policy

variable {D : Policy} {st st' : Store}

/-! ### attributes -/

theorem holds_changeAttributes (hst : D.Holds st) {r : Ref} (hr : D.Opens r)
    (hfixed : (st.node r).isFixed = false) {onFields : Fields Value → Fields Value}
    {onEntries : List (Value × Value) → List (Value × Value)}
    (hfields : ∀ fields, (∀ v ∈ fields.map Prod.snd, D.Admits st v) →
      ∀ v ∈ (onFields fields).map Prod.snd, D.Admits st v)
    (hentries : ∀ entries, (∀ v ∈ entryValues entries, D.Admits st v) →
      ∀ v ∈ entryValues (onEntries entries), D.Admits st v) :
    D.Holds (st.changeAttributes r onFields onEntries) := by
  have hread := fun v => @D.admits_of_mem st r v hst hr
  unfold Store.changeAttributes
  cases hn : st.node r with
  | record kind attributes =>
    rw [hn] at hread
    cases attributes with
    | own fields =>
      rw [hn] at hfixed
      refine D.holds_write hst hr (by rw [hn]; exact .record hfixed _ _ _) fun v hv => ?_
      rcases List.mem_append.mp hv with hv | hv
      · exact hread v (List.mem_append_left _ hv)
      · exact hfields fields (fun u hu => hread u (List.mem_append_right _ hu)) v hv
    | shared table =>
      have htable : D.Admits st (.ref table) :=
        hread _ (List.mem_append_right _ List.mem_cons_self)
      cases ht : st.node table with
      | table entries =>
        simp only [ht]
        have ho : D.Opens table := D.opens_of_ne_selector hst htable fun _ hs => by
          rw [ht] at hs
          cases hs
        refine D.holds_write hst ho (by rw [ht]; exact .table _ _) (hentries entries fun u hu => ?_)
        exact D.admits_of_mem hst ho (by rw [ht]; exact hu)
      | list _ | tuple _ | set _ | record _ _ | point _ _ | sealed =>
        simp only [ht]
        exact hst
  | list _ | tuple _ | set _ | table _ | point _ _ | sealed => exact hst

theorem admits_put {name : Text} {value : Value} (hvalue : D.Admits st value)
    {fields : Fields Value} (h : ∀ v ∈ fields.map Prod.snd, D.Admits st v) :
    ∀ v ∈ (Fields.put name value fields).map Prod.snd, D.Admits st v := by
  intro v hv
  obtain ⟨field, hfield, rfl⟩ := List.mem_map.mp hv
  rcases Fields.mem_put hfield with rfl | hfield
  · exact hvalue
  · exact h _ (List.mem_map.mpr ⟨field, hfield, rfl⟩)

theorem admits_erase {name : Text} {fields : Fields Value}
    (h : ∀ v ∈ fields.map Prod.snd, D.Admits st v) :
    ∀ v ∈ (Fields.erase name fields).map Prod.snd, D.Admits st v :=
  fun v hv => h v (((Fields.sublist_erase name fields).map _).subset hv)

theorem holds_assign (hst : D.Holds st) {r : Ref} (hr : D.Opens r)
    (hfixed : (st.node r).isFixed = false) (name : Text) {value : Value}
    (hvalue : D.Admits st value) : D.Holds (st.assign r name value) := by
  refine holds_changeAttributes hst hr hfixed (fun _ => admits_put hvalue) fun entries h v hv => ?_
  rcases Store.mem_values_putNamed hv with rfl | rfl | hv
  · exact D.admits_scalar fun _ => Value.noConfusion
  · exact hvalue
  · exact h v hv

theorem holds_erase (hst : D.Holds st) {r : Ref} (hr : D.Opens r)
    (hfixed : (st.node r).isFixed = false) (name : Text) : D.Holds (st.erase r name) := by
  refine holds_changeAttributes hst hr hfixed (fun _ => admits_erase) fun entries h v hv => ?_
  obtain ⟨entry, hentry, hv⟩ := mem_entryValues.mp hv
  exact h v (mem_entryValues.mpr ⟨entry, (Store.sublist_eraseNamed _ _).subset hentry, hv⟩)

/-! ### new values -/

/-- A new value that is admitted, in a store for which the policy still holds. -/
structure Made (D : Policy) (st : Store) (v : Value) (st' : Store) : Prop where
  holds : D.Holds st'
  extends_store : Store.Extends st st'
  admits : D.Admits st' v

theorem made_self (hst : D.Holds st) {v : Value} (hv : D.Admits st v) : D.Made st v st :=
  ⟨hst, .refl st, hv⟩

theorem made_alloc (hst : D.Holds st) {n : Node} (hn : ∀ v ∈ n.values, D.Admits st v) :
    D.Made st (st.alloc n).1 (st.alloc n).2 :=
  ⟨D.holds_alloc hst hn, Store.extends_alloc st n, D.admits_new hst (st.size_lt_alloc n)⟩

theorem asTuple_made (hst : D.Holds st) {v : Value} (hv : D.Admits st v) {r : Ref}
    (h : st.asTuple v = .ok (r, st')) : D.Made st (.ref r) st' := by
  have hnew : (st.items v).map (fun items => (st.size, (st.alloc (.tuple items)).2))
      = .ok (r, st') → D.Made st (.ref r) st' := by
    intro hmap
    obtain ⟨items, hi, he⟩ := Json.exists_of_map_eq_ok hmap
    cases he
    exact made_alloc hst (admits_items hst hv hi)
  unfold Store.asTuple at h
  cases v with
  | ref q =>
    simp only at h
    split at h
    · cases h
      exact made_self hst hv
    · exact hnew h
  | null | bool | int | float | str | octets | stage | combinator => exact hnew h

/-- What an assignment makes of the core of an error. -/
theorem admits_assignCore (hst : D.Holds st) {core core' : ErrorCore} {name : Text} {value : Value}
    (hcore : ∀ v ∈ core.values, D.Admits st v) (hvalue : D.Admits st value)
    (h : st.assignCore? core name value = some (.ok (core', st'))) :
    D.Holds st' ∧ Store.Extends st st' ∧ ∀ v ∈ core'.values, D.Admits st' v := by
  have harguments : ∀ v ∈ core.arguments.map Value.ref, D.Admits st v := fun v hv =>
    hcore v (List.mem_append_left _ (Option.mem_toList.mpr hv))
  have hfurther : ∀ v ∈ core.further.map Prod.snd, D.Admits st v := fun v hv =>
    hcore v (List.mem_append_right _ hv)
  have hcores : ∀ further : Fields Value, (∀ v ∈ further.map Prod.snd, D.Admits st v) →
      ∀ v ∈ ErrorCore.values { core with further := further }, D.Admits st v := by
    intro further hall v hv
    rcases List.mem_append.mp hv with hv | hv
    · exact harguments v (Option.mem_toList.mp hv)
    · exact hall v hv
  have htruth : D.Admits st (.bool true) := D.admits_scalar fun _ => Value.noConfusion
  unfold Store.assignCore? at h
  simp only at h
  split at h
  · obtain ⟨⟨r, st₁⟩, ht, he⟩ := Json.exists_of_map_eq_ok (Option.some.inj h)
    cases he
    obtain ⟨hst', hextends, hr⟩ := asTuple_made hst hvalue ht
    refine ⟨hst', hextends, fun v hv => ?_⟩
    rcases List.mem_cons.mp hv with rfl | hv
    · exact hr
    · exact D.admits_mono hextends.size_le (hfurther v hv)
  · split at h
    · obtain ⟨_, _, he⟩ := Json.exists_of_map_eq_ok (Option.some.inj h)
      cases he
      exact ⟨hst, .refl st, hcores _ (admits_put htruth (admits_put hvalue hfurther))⟩
    · split at h
      · obtain ⟨_, _, he⟩ := Json.exists_of_map_eq_ok (Option.some.inj h)
        cases he
        exact ⟨hst, .refl st, hcores _ (admits_put hvalue hfurther)⟩
      · split at h
        · split at h
          · cases h
            exact ⟨hst, .refl st, hcore⟩
          · cases h
        · split at h
          · split at h
            · cases h
              exact ⟨hst, .refl st, hcores _ (admits_put hvalue hfurther)⟩
            · cases h
          · cases h

theorem asTable?_eq {v : Value} {table : Ref} (h : st.asTable? v = some table) :
    v = .ref table := by
  unfold Store.asTable? at h
  split at h
  · split at h
    · cases h
      rfl
    · cases h
  · cases h

theorem holds_setRecordAttribute (hst : D.Holds st) {r : Ref} (hr : D.Opens r) {kind : Kind}
    {attributes : Attributes} (hn : st.node r = .record kind attributes)
    (hfrozen : kind.isFrozen = false) {name : Text} {value : Value} (hvalue : D.Admits st value)
    (h : st.setRecordAttribute r kind attributes name value = .ok st') :
    D.Holds st' ∧ st.size ≤ st'.size := by
  have hfixed : (st.node r).isFixed = false := by
    rw [hn]
    exact hfrozen
  have hbecomes : ∀ kind' attributes', (st.node r).Becomes (.record kind' attributes') := by
    rw [hn]
    exact fun kind' attributes' => .record hfrozen kind' attributes attributes'
  have hread : ∀ v ∈ (Node.record kind attributes).values, D.Admits st v := fun v hv =>
    D.admits_of_mem hst hr (by rw [hn]; exact hv)
  have hassign : D.Holds (st.assign r name value) ∧ st.size ≤ (st.assign r name value).size :=
    ⟨holds_assign hst hr hfixed name hvalue, Nat.le_of_eq (st.size_assign r name value).symm⟩
  unfold Store.setRecordAttribute at h
  split at h
  · cases h
  · split at h
    · split at h
      · next table htable =>
        cases h
        rw [asTable?_eq htable] at hvalue
        refine ⟨D.holds_write hst hr (hbecomes _ _) fun v hv => ?_,
          Nat.le_of_eq (st.size_write _ _).symm⟩
        rcases List.mem_append.mp hv with hv | hv
        · exact hread v (List.mem_append_left _ hv)
        · rw [List.mem_singleton.mp hv]
          exact hvalue
      · cases h
    · split at h
      · cases h
      · split at h
        · next k core =>
          split at h
          · next changed hchanged =>
            cases changed with
            | error f => cases h
            | ok result =>
              obtain ⟨core', st₁⟩ := result
              cases h
              obtain ⟨hst₁, hextends, hcore⟩ := admits_assignCore hst
                (fun v hv => hread v (List.mem_append_left _ hv)) hvalue hchanged
              have hn₁ : st₁.node r = .record (.error k core) attributes :=
                hextends.node_eq_of_ne hn Node.noConfusion
              refine ⟨D.holds_write hst₁ hr (by rw [hn₁]; exact .record rfl _ _ _) fun v hv => ?_, ?_⟩
              · rcases List.mem_append.mp hv with hv | hv
                · exact hcore v hv
                · exact D.admits_mono hextends.size_le (hread v (List.mem_append_right _ hv))
              · rw [Store.size_write]
                exact hextends.size_le
          · cases h
            exact hassign
        · cases h
          exact hassign

theorem holds_setScalarAttribute (hst : D.Holds st) {v value : Value} {name : Text}
    (hvalue : D.Admits st value) (h : st.setScalarAttribute v name value = .ok st') :
    D.Holds st' ∧ st.size ≤ st'.size := by
  unfold Store.setScalarAttribute at h
  split at h
  · cases h
  · split at h
    · split at h
      · split at h
        · next table htable =>
          cases h
          rw [asTable?_eq htable] at hvalue
          refine ⟨D.holds_give hst (admits_fields hst fun v hv => ?_), Nat.le_refl _⟩
          rw [List.mem_singleton.mp hv]
          exact hvalue
        · cases h
      · cases h
        exact ⟨D.holds_give hst (admits_put hvalue fun u hu => D.admits_given hst hu),
          Nat.le_refl _⟩
    · cases h

/-- An assignment keeps to a policy if it is made to an open object. -/
theorem holds_setAttribute (hst : D.Holds st) {v value : Value} (hv : ∀ r, v = .ref r → D.Opens r)
    {name : Text} (hvalue : D.Admits st value) (h : st.setAttribute v name value = .ok st') :
    D.Holds st' ∧ st.size ≤ st'.size := by
  unfold Store.setAttribute at h
  split at h
  · cases h
  · next hfrozen =>
    split at h
    · cases h
    · cases v with
      | ref r =>
        have hr := hv r rfl
        cases hn : st.node r with
        | record kind attributes =>
          simp only [hn] at h
          refine holds_setRecordAttribute hst hr hn ?_ hvalue h
          simpa [Store.isFrozen, hn] using hfrozen
        | point x y =>
          simp only [hn] at h
          have hread : ∀ u ∈ (Node.point x y).values, D.Admits st u := fun u hu =>
            D.admits_of_mem hst hr (by rw [hn]; exact hu)
          have hwrite : ∀ x' y' : Option Value, (∀ u ∈ (Node.point x' y').values, D.Admits st u) →
              D.Holds (st.write r (.point x' y')) ∧
                st.size ≤ (st.write r (.point x' y')).size := fun x' y' hall =>
            ⟨D.holds_write hst hr (by rw [hn]; exact .point _ _ _ _) hall,
              Nat.le_of_eq (st.size_write _ _).symm⟩
          split at h
          · cases h
            refine hwrite _ _ fun u hu => ?_
            rcases List.mem_cons.mp hu with rfl | hu
            · exact hvalue
            · exact hread u (List.mem_append_right _ hu)
          · split at h
            · cases h
              refine hwrite _ _ fun u hu => ?_
              rcases List.mem_append.mp hu with hu | hu
              · exact hread u (List.mem_append_left _ hu)
              · rw [List.mem_singleton.mp hu]
                exact hvalue
            · cases h
        | list _ | tuple _ | set _ | table _ | sealed =>
          simp only [hn] at h
          cases h
      | null | bool | int | float | str | octets | stage | combinator =>
        exact holds_setScalarAttribute hst hvalue h

/-! ### deletions -/

theorem holds_deleteRecordAttribute (hst : D.Holds st) {r : Ref} (hr : D.Opens r) {kind : Kind}
    {attributes : Attributes} (hn : st.node r = .record kind attributes)
    (hfrozen : kind.isFrozen = false) {name : Text}
    (h : st.deleteRecordAttribute r kind attributes name = .ok st') :
    D.Holds st' ∧ st.size ≤ st'.size := by
  have hfixed : (st.node r).isFixed = false := by
    rw [hn]
    exact hfrozen
  unfold Store.deleteRecordAttribute at h
  simp only at h
  split at h
  · cases h
  · split at h
    · cases h
    · split at h
      · cases h
        refine ⟨D.holds_write hst hr (by rw [hn]; exact .record hfrozen _ _ _) fun v hv => ?_,
          Nat.le_of_eq (st.size_write _ _).symm⟩
        refine D.admits_of_mem hst hr ?_
        rw [hn]
        simpa [Node.values, Attributes.values] using Or.inl hv
      · split at h
        · cases h
        · split at h
          · cases h
            exact ⟨holds_erase hst hr hfixed name,
              Nat.le_of_eq (st.size_changeAttributes r _ _).symm⟩
          · cases h

theorem holds_deleteScalarAttribute (hst : D.Holds st) {v : Value} {name : Text}
    (h : st.deleteScalarAttribute v name = .ok st') : D.Holds st' ∧ st.size ≤ st'.size := by
  unfold Store.deleteScalarAttribute at h
  split at h
  · cases h
  · cases h
  · cases h
  · split at h
    · cases h
      exact ⟨D.holds_give hst fun u hu => absurd hu List.not_mem_nil, Nat.le_refl _⟩
    · split at h
      · cases h
        exact ⟨D.holds_give hst (admits_erase fun u hu => D.admits_given hst hu), Nat.le_refl _⟩
      · cases h

theorem holds_deleteAttribute (hst : D.Holds st) {v : Value} (hv : ∀ r, v = .ref r → D.Opens r)
    {name : Text} (h : st.deleteAttribute v name = .ok st') :
    D.Holds st' ∧ st.size ≤ st'.size := by
  unfold Store.deleteAttribute at h
  split at h
  · cases h
  · next hfrozen =>
    split at h
    · cases h
    · cases v with
      | ref r =>
        have hr := hv r rfl
        cases hn : st.node r with
        | record kind attributes =>
          simp only [hn] at h
          refine holds_deleteRecordAttribute hst hr hn ?_ h
          simpa [Store.isFrozen, hn] using hfrozen
        | point x y =>
          simp only [hn] at h
          have hwrite : ∀ x' y' : Option Value,
              (∀ u ∈ (Node.point x' y').values, u ∈ (Node.point x y).values) →
              D.Holds (st.write r (.point x' y')) ∧
                st.size ≤ (st.write r (.point x' y')).size := fun x' y' hall =>
            ⟨D.holds_write hst hr (by rw [hn]; exact .point _ _ _ _) fun u hu =>
              D.admits_of_mem hst hr (by rw [hn]; exact hall u hu),
              Nat.le_of_eq (st.size_write _ _).symm⟩
          split at h
          · split at h
            · cases h
              exact hwrite _ _ fun u hu => List.mem_append_right _ hu
            · cases h
          · split at h
            · split at h
              · cases h
                refine hwrite _ _ fun u hu => ?_
                rcases List.mem_append.mp hu with hu | hu
                · exact List.mem_append_left _ hu
                · cases hu
              · cases h
            · cases h
        | list _ | tuple _ | set _ | table _ | sealed =>
          simp only [hn] at h
          cases h
      | null | bool | int | float | str | octets | stage | combinator =>
        exact holds_deleteScalarAttribute hst h

/-- Only a list takes items, and a list is open. -/
theorem holds_push (hst : D.Holds st) {v item : Value} (hv : D.Admits st v)
    (hitem : D.Admits st item) (h : st.push v item = .ok st') :
    D.Holds st' ∧ st.size ≤ st'.size := by
  unfold Store.push at h
  cases v with
  | ref r =>
    cases hn : st.node r with
    | list items =>
      simp only [hn] at h
      cases h
      have hr : D.Opens r := D.opens_of_ne_selector hst hv fun _ hs => by
        rw [hn] at hs
        cases hs
      refine ⟨D.holds_write hst hr (by rw [hn]; exact .list _ _) fun u hu => ?_,
        Nat.le_of_eq (st.size_write _ _).symm⟩
      rcases List.mem_append.mp hu with hu | hu
      · exact D.admits_of_mem hst hr (by rw [hn]; exact hu)
      · rw [List.mem_singleton.mp hu]
        exact hitem
    | record _ _ | point _ _ | tuple _ | set _ | table _ | sealed =>
      simp only [hn] at h
      exact absurd h Store.callMissing_ne_ok
  | null | bool | int | float | str | octets | stage | combinator =>
    exact absurd h Store.callMissing_ne_ok

end Policy

end SelectorForge
