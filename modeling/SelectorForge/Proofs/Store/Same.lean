import SelectorForge.Proofs.Store.Opened
import SelectorForge.Proofs.Store.Revival
import SelectorForge.Store.Equality

/-!
# Decoded twice

Two values that one document is decoded to are equal, however their nodes lie in the store: the
comparison follows the document, and a document is not deeper than the store has nodes. Objects of
one kind are equal if they answer alike for what they declare.

* `Store.Same`            values that are equal in both directions;
* `Store.Duplicate`       values that one document is decoded to;
* `Store.Suffices`        fuel that is enough for what can be reached from a value;
* `Loaded.equalBy`        the comparison of two such values;
* `Duplicate.same`        they are equal;
* `equal_of_declared`     objects, from what they answer.
-/

namespace SelectorForge.Store

open Relation

variable {st st' : Store} {v v' : Value} {r r' : Ref} {fuel : Nat}

/-! ### tests over lists -/

theorem allPairs_eq_true {test : Value → Value → Except Fault Bool} {as bs : List Value}
    (h : List.Forall₂ (fun a b => test a b = .ok true) as bs) : allPairs test as bs = .ok true := by
  induction h with
  | nil => rfl
  | cons hab _ ih =>
    rw [allPairs, hab]
    exact ih

theorem allM_eq_true {α : Type} {test : α → Except Fault Bool} {as : List α}
    (h : ∀ a ∈ as, test a = .ok true) : as.allM test = .ok true := by
  induction as with
  | nil => rfl
  | cons a as ih =>
    obtain ⟨ha, has⟩ := List.forall_mem_cons.mp h
    rw [List.allM, ha]
    exact ih has

/-- A name is looked for among entries whose keys are names. -/
theorem findEntry_names {test : Value → Except Fault Bool} {name : Text}
    (h : ∀ other, test (.str other) = .ok (decide (other = name))) (fields : Fields Value) :
    findEntry test (fields.map fun (other, v) => (.str other, v))
      = .ok (Fields.get? name fields) := by
  induction fields with
  | nil => rfl
  | cons field fields ih =>
    obtain ⟨other, v⟩ := field
    rw [List.map_cons, findEntry, h, Fields.get?_cons]
    by_cases ho : other = name
    · rw [if_pos ho, decide_eq_true ho]
      rfl
    · rw [if_neg ho, decide_eq_false ho]
      exact ih

/-- Fields with the same names answer related values, if they answer any. -/
theorem get?_forall₂ {R : Value → Value → Prop} {fields fields' : Fields Value}
    (h : List.Forall₂ (fun f f' => f.1 = f'.1 ∧ R f.2 f'.2) fields fields') (name : Text) :
    (name ∉ Fields.names fields ∧ Fields.get? name fields = none ∧
      Fields.get? name fields' = none) ∨
    ∃ v v', Fields.get? name fields = some v ∧ Fields.get? name fields' = some v' ∧ R v v' := by
  induction h with
  | nil => exact .inl ⟨List.not_mem_nil, rfl, rfl⟩
  | @cons field field' _ _ hfirst _ ih =>
    obtain ⟨other, v⟩ := field
    obtain ⟨_, v'⟩ := field'
    obtain ⟨rfl, hR⟩ := hfirst
    rw [Fields.get?_cons, Fields.get?_cons]
    by_cases hname : other = name
    · rw [if_pos hname, if_pos hname]
      exact .inr ⟨v, v', rfl, rfl, hR⟩
    · rw [if_neg hname, if_neg hname]
      refine ih.imp_left fun ⟨hnot, hnone⟩ => ⟨?_, hnone⟩
      exact List.not_mem_cons_of_ne_of_not_mem (Ne.symm hname) hnot

/-! ### scalars -/

section scalars

variable {within : Value → Value → Except Fault Bool}

/-- Texts and combinators are compared by their texts. -/
theorem equalBy_text {t : Text} (h : asText? v = some t) (h' : asText? v' = some t) :
    equalBy st within v v' = .ok true := by
  cases v <;> cases h <;> cases v' <;> simp_all [asText?, equalBy, scalarsEqual, numbersEqual?,
    asInt?]

/-- A scalar that is a number equals itself. -/
theorem equalBy_self (hr : ∀ r, v ≠ .ref r) (hx : ∀ x, v ≠ .float x) :
    equalBy st within v v = .ok true := by
  cases v with
  | ref r => exact absurd rfl (hr r)
  | float x => exact absurd rfl (hx x)
  | null | bool | int | str | octets | stage | combinator =>
    simp [equalBy, scalarsEqual, numbersEqual?, asInt?, asText?]

end scalars

theorem equalWithin_of_equalBy (h : equalBy st (equalWithin st fuel) v v' = .ok true) :
    equalWithin st (fuel + 1) v v' = .ok true := by
  unfold equalWithin
  split
  · rfl
  · exact h

theorem equalWithin_str (st : Store) (fuel : Nat) (s t : Text) :
    equalWithin st (fuel + 1) (.str s) (.str t) = .ok (decide (s = t)) := by
  unfold equalWithin
  by_cases h : s = t
  · simp [h]
  · simp [h, equalBy, scalarsEqual, numbersEqual?, asInt?, asText?]

theorem findEntry_equalWithin (st : Store) (fuel : Nat) (name : Text) (fields : Fields Value) :
    findEntry (fun key => equalWithin st (fuel + 1) key (.str name))
        (fields.map fun (other, v) => (.str other, v)) = .ok (Fields.get? name fields) :=
  findEntry_names (fun other => st.equalWithin_str fuel other name) fields

/-! ### lists and tables -/

theorem exists_of_forall₂ {α β : Type} {R : α → β → Prop} {as : List α} {bs : List β}
    (h : List.Forall₂ R as bs) {a : α} (ha : a ∈ as) : ∃ b ∈ bs, R a b := by
  induction h with
  | nil => exact absurd ha List.not_mem_nil
  | cons hab _ ih =>
    rcases List.mem_cons.mp ha with rfl | ha
    · exact ⟨_, List.mem_cons_self, hab⟩
    · obtain ⟨b, hb, hR⟩ := ih ha
      exact ⟨b, List.mem_cons_of_mem _ hb, hR⟩

theorem equalBy_lists {vs vs' : List Value} (hn : st.node r = .list vs)
    (hn' : st.node r' = .list vs')
    (h : List.Forall₂ (fun w w' => equalWithin st fuel w w' = .ok true) vs vs') :
    equalBy st (equalWithin st fuel) (.ref r) (.ref r') = .ok true := by
  simp only [equalBy, hn, hn', if_pos h.length_eq]
  exact allPairs_eq_true h

/-- Tables with the same names. The value that is found is compared with the one that is looked
for, not the other way round. -/
theorem equalBy_tables {fields fields' : Fields Value}
    (hn : st.node r = .table (fields.map fun (name, v) => (.str name, v)))
    (hn' : st.node r' = .table (fields'.map fun (name, v) => (.str name, v)))
    (hnodup : (Fields.names fields').Nodup)
    (h : List.Forall₂ (fun f f' => f.1 = f'.1 ∧ equalWithin st fuel f'.2 f.2 = .ok true)
      fields fields') :
    equalBy st (equalWithin st fuel) (.ref r) (.ref r') = .ok true := by
  simp only [equalBy, hn, hn', List.length_map, if_pos h.length_eq]
  refine allM_eq_true fun entry hentry => ?_
  obtain ⟨field, hfield, rfl⟩ := List.mem_map.mp hentry
  obtain ⟨field', hfield', hname, hequal⟩ := exists_of_forall₂ h hfield
  cases fuel with
  | zero => cases hequal
  | succ k =>
    -- the name is found with the value of its own field, since no other field has it
    have hfind := findEntry_equalWithin st k field'.1 fields'
    rw [get?_of_mem hnodup hfield'] at hfind
    simp only [bind, Except.bind, hname, hfind]
    exact hequal

/-! ### decoded lists and tables -/

/-- Items that the same documents are decoded to. -/
theorem LoadedItems.forall₂ {vs vs' : List Value} {ds : List Json} (h : LoadedItems st vs ds)
    (h' : LoadedItems st vs' ds) :
    List.Forall₂ (fun v v' => v ∈ vs ∧ v' ∈ vs' ∧ ∃ d ∈ ds, Loaded st v d ∧ Loaded st v' d)
      vs vs' := by
  induction ds generalizing vs vs' with
  | nil =>
    cases h
    cases h'
    exact .nil
  | cons d ds ih =>
    cases h with
    | cons hv hvs =>
      cases h' with
      | cons hv' hvs' =>
        refine .cons ⟨List.mem_cons_self, List.mem_cons_self, d, List.mem_cons_self, hv, hv'⟩ ?_
        refine (ih hvs hvs').imp fun v v' ⟨hmem, hmem', d', hd', hboth⟩ => ?_
        exact ⟨List.mem_cons_of_mem _ hmem, List.mem_cons_of_mem _ hmem', d',
          List.mem_cons_of_mem _ hd', hboth⟩

/-- Fields that the same members are decoded to. -/
theorem LoadedMembers.forall₂ {fields fields' : Fields Value} {ms : List (Text × Json)}
    (h : LoadedMembers st fields ms) (h' : LoadedMembers st fields' ms) :
    List.Forall₂ (fun f f' => f ∈ fields ∧ f' ∈ fields' ∧ f.1 = f'.1 ∧
      ∃ m ∈ ms, Loaded st f.2 m.2 ∧ Loaded st f'.2 m.2) fields fields' := by
  induction ms generalizing fields fields' with
  | nil =>
    cases h
    cases h'
    exact .nil
  | cons m ms ih =>
    cases h with
    | cons hv hvs =>
      cases h' with
      | cons hv' hvs' =>
        refine .cons ⟨List.mem_cons_self, List.mem_cons_self, rfl, _, List.mem_cons_self, hv,
          hv'⟩ ?_
        refine (ih hvs hvs').imp fun f f' ⟨hmem, hmem', hname, m', hm', hboth⟩ => ?_
        exact ⟨List.mem_cons_of_mem _ hmem, List.mem_cons_of_mem _ hmem', hname, m',
          List.mem_cons_of_mem _ hm', hboth⟩

/-! ### decoded values -/

/-- Fuel that is enough to go down from a value that is reached on some path. -/
def Suffices (st : Store) (fuel : Nat) (v : Value) : Prop :=
  ∃ path, Path st.Holds st.size path v ∧ st.size ≤ fuel + path.length

theorem suffices_of_le (h : st.size ≤ fuel) (v : Value) : st.Suffices fuel v :=
  ⟨[], path_nil v, h⟩

/-- A node that does not hold itself is not on the way to it, so some fuel is left for its parts. -/
theorem Suffices.part (h : st.Suffices fuel (.ref r))
    (hacc : Acc (fun w v => st.Holds v w) (.ref r)) {w : Value} (hw : w ∈ (st.content r).parts) :
    ∃ k, fuel = k + 1 ∧ st.Suffices k w := by
  obtain ⟨path, hp, hf⟩ := h
  have hc : st.content r ≠ .closed := by
    intro hc
    rw [hc] at hw
    exact absurd hw List.not_mem_nil
  have hpath := (hp.parts hacc hc).2 w hw
  have hlength := hpath.length_le
  rw [List.length_cons] at hlength
  obtain ⟨k, rfl⟩ := Nat.exists_eq_succ_of_ne_zero (show fuel ≠ 0 by omega)
  exact ⟨k, rfl, r :: path, hpath, by rw [List.length_cons]; omega⟩

/-- Two parts are compared with what is left of the fuel, if it is enough for the wholes. -/
theorem equalWithin_parts (h : st.Suffices fuel (.ref r)) (h' : st.Suffices fuel (.ref r'))
    (hacc : Acc (fun w v => st.Holds v w) (.ref r))
    (hacc' : Acc (fun w v => st.Holds v w) (.ref r'))
    (hv : v ∈ (st.content r).parts) (hv' : v' ∈ (st.content r').parts)
    (hequal : ∀ k, st.Suffices k v → st.Suffices k v' →
      equalBy st (equalWithin st k) v v' = .ok true) :
    equalWithin st fuel v v' = .ok true := by
  obtain ⟨k, rfl, hk⟩ := h.part hacc hv
  obtain ⟨k', heq, hk'⟩ := h'.part hacc' hv'
  cases heq
  exact equalWithin_of_equalBy (hequal k hk hk')

theorem mem_parts {fields : Fields Value} {field : Text × Value} (h : field ∈ fields) :
    field.2 ∈ (Content.entries (fields.map fun (name, v) => (.str name, v))).parts :=
  List.mem_map_of_mem (List.mem_map_of_mem h)

/-- **Values that one document is decoded to are equal.** -/
theorem Loaded.equalBy {d : Json} (h : Loaded st v d) (h' : Loaded st v' d) (he : d.Exact)
    (hd : d.Distinct) (hf : st.Suffices fuel v) (hf' : st.Suffices fuel v') :
    Store.equalBy st (equalWithin st fuel) v v' = .ok true := by
  induction d using Json.induction generalizing v v' fuel with
  | null | bool | int | str =>
    cases h
    cases h'
    exact equalBy_self (fun _ => Value.noConfusion) (fun _ => Value.noConfusion)
  | float x => cases he
  | arr ds ih =>
    have hacc := (h.depicts he).acc
    have hacc' := (h'.depicts he).acc
    cases h with | @arr r vs _ hn hvs =>
    cases h' with | @arr r' vs' _ hn' hvs' =>
    cases he with | arr he =>
    cases hd with | arr hd =>
    have hc := st.content_eq_items_iff.mpr (Or.inl hn)
    have hc' := st.content_eq_items_iff.mpr (Or.inl hn')
    refine equalBy_lists hn hn' ((hvs.forall₂ hvs').imp
      fun w w' ⟨hmem, hmem', d, hdmem, hw, hw'⟩ => ?_)
    exact equalWithin_parts hf hf' hacc hacc' (by rw [hc]; exact hmem) (by rw [hc']; exact hmem')
      fun k hk hk' => ih d hdmem hw hw' (he d hdmem) (hd d hdmem) hk hk'
  | obj ms ih =>
    have hacc := (h.depicts he).acc
    have hacc' := (h'.depicts he).acc
    cases h with | @obj r fields _ hn hfields =>
    cases h' with | @obj r' fields' _ hn' hfields' =>
    cases he with | obj _ he =>
    cases hd with | obj hnames hd =>
    have hc := st.content_eq_entries_iff.mpr (Or.inl hn)
    have hc' := st.content_eq_entries_iff.mpr (Or.inl hn')
    refine equalBy_tables hn hn' (by rwa [hfields'.names_eq]) ((hfields.forall₂ hfields').imp
      fun f f' ⟨hmem, hmem', hname, m, hm, hw, hw'⟩ => ⟨hname, ?_⟩)
    exact equalWithin_parts hf' hf hacc' hacc (by rw [hc']; exact mem_parts hmem')
      (by rw [hc]; exact mem_parts hmem) fun k hk hk' => ih m hm hw' hw (he m hm) (hd m hm) hk hk'

/-! ### values that are the same -/

/-- Equal in both directions. -/
structure Same (st : Store) (v v' : Value) : Prop where
  there : st.equal v v' = .ok true
  back : st.equal v' v = .ok true

/-- Two values that one document is decoded to. -/
def Duplicate (st : Store) (v v' : Value) : Prop :=
  ∃ d : Json, Loaded st v d ∧ Loaded st v' d ∧ d.Exact ∧ d.Distinct

theorem Duplicate.symm (h : st.Duplicate v v') : st.Duplicate v' v := by
  obtain ⟨d, hv, hv', he, hd⟩ := h
  exact ⟨d, hv', hv, he, hd⟩

theorem Duplicate.equalBy (h : st.Duplicate v v') (hf : st.size ≤ fuel) :
    Store.equalBy st (equalWithin st fuel) v v' = .ok true := by
  obtain ⟨d, hv, hv', he, hd⟩ := h
  exact hv.equalBy hv' he hd (suffices_of_le hf v) (suffices_of_le hf v')

theorem Duplicate.same (h : st.Duplicate v v') : st.Same v v' where
  there := h.equalBy (by omega)
  back := h.symm.equalBy (by omega)

theorem LoadedMembers.duplicates {fields fields' : Fields Value} {ms : List (Text × Json)}
    (h : LoadedMembers st fields ms) (h' : LoadedMembers st fields' ms)
    (he : (Json.obj ms).Exact) (hd : (Json.obj ms).Distinct) :
    List.Forall₂ (fun f f' => f.1 = f'.1 ∧ st.Duplicate f.2 f'.2) fields fields' := by
  cases he with | obj _ he =>
  cases hd with | obj _ hd =>
  exact (h.forall₂ h').imp fun _ _ ⟨_, _, hname, m, hm, hv, hv'⟩ =>
    ⟨hname, m.2, hv, hv', he m hm, hd m hm⟩

theorem same_of_text {t : Text} (h : asText? v = some t) (h' : asText? v' = some t) :
    st.Same v v' := ⟨equalBy_text h h', equalBy_text h' h⟩

/-! ### objects -/

/-- **Objects of one kind are equal** if what they answer for the declared names is. -/
theorem equal_of_declared {kind : Kind} {attributes attributes' : Attributes} {names : List Text}
    (hn : st.node r = .record kind attributes) (hn' : st.node r' = .record kind attributes')
    (hkind : kind.declared? = some names)
    (h : ∀ name ∈ names, ∃ a b, st.lookup (.ref r) name = .ok a ∧
      st.lookup (.ref r') name = .ok b ∧ equalWithin st (2 * st.size + 1) a b = .ok true) :
    st.equal (.ref r) (.ref r') = .ok true := by
  have hanswers : ∃ as bs, names.mapM (st.lookup (.ref r)) = .ok as ∧
      names.mapM (st.lookup (.ref r')) = .ok bs ∧
      List.Forall₂ (fun a b => equalWithin st (2 * st.size + 1) a b = .ok true) as bs := by
    clear hkind
    induction names with
    | nil => exact ⟨[], [], rfl, rfl, .nil⟩
    | cons name names ih =>
      obtain ⟨⟨a, b, ha, hb, hab⟩, hrest⟩ := List.forall_mem_cons.mp h
      obtain ⟨as, bs, has, hbs, hall⟩ := ih hrest
      refine ⟨a :: as, b :: bs, ?_, ?_, .cons hab hall⟩
      · rw [List.mapM_cons, ha, has]
        rfl
      · rw [List.mapM_cons, hb, hbs]
        rfl
  obtain ⟨as, bs, has, hbs, hall⟩ := hanswers
  have hsame : sameKind (.record kind attributes) (.record kind attributes') = true :=
    decide_eq_true rfl
  simp only [equal, Store.equalBy, hn, hn', comparedAttributes?, hkind, hsame, if_true, has, hbs]
  exact allPairs_eq_true hall

end SelectorForge.Store
