import SelectorForge.Proofs.Store.RoundTrip
import SelectorForge.Store.Revive

/-!
# Revived and encoded again

A revived object has the members of the decoded document for its attributes, whatever their names
are, and it is encoded as this document is written. From then on nothing changes: what has been
written is revived with the same attributes and written as before, by objects of every kind.

* `Store.Extends`        a store with further nodes;
* `Store.Loaded`         a value is what a document is decoded to;
* `Store.load_loaded`    what `load` answers;
* `Store.revive_eq`      what `revive` answers;
* `Store.revive_attributes`  which attributes the object has, by the members in the text;
* `Store.revive_toJson`  what becomes of a text that is revived and encoded.
-/

namespace SelectorForge.Store

/-! ### further nodes -/

structure Extends (st st' : Store) : Prop where
  size_le : st.size ≤ st'.size
  node_eq : ∀ r < st.size, st'.node r = st.node r

theorem Extends.refl (st : Store) : Extends st st := ⟨Nat.le_refl _, fun _ _ => rfl⟩

theorem Extends.trans {st₁ st₂ st₃ : Store} (h : Extends st₁ st₂) (h' : Extends st₂ st₃) :
    Extends st₁ st₃ where
  size_le := Nat.le_trans h.size_le h'.size_le
  node_eq r hr := by rw [h'.node_eq r (Nat.lt_of_lt_of_le hr h.size_le), h.node_eq r hr]

theorem extends_alloc (st : Store) (n : Node) : Extends st (st.alloc n).2 :=
  ⟨Nat.le_of_lt (st.size_lt_alloc n), fun r hr => st.node_alloc n r hr⟩

theorem Extends.node_eq_of_ne {st st' : Store} (h : Extends st st') {r : Ref} {n : Node}
    (hn : st.node r = n) (hne : n ≠ .sealed) : st'.node r = n := by
  rw [h.node_eq r (lt_size_of_node_ne (by rw [hn]; exact hne)), hn]

/-! ### decoded documents -/

mutual

/-- A value is what a document is decoded to: arrays are lists, objects are tables. -/
inductive Loaded (st : Store) : Value → Json → Prop
  | null : Loaded st .null .null
  | bool (b : Bool) : Loaded st (.bool b) (.bool b)
  | int (n : Int) : Loaded st (.int n) (.int n)
  | float (x : Double) : Loaded st (.float x) (.float x)
  | str (t : Text) : Loaded st (.str t) (.str t)
  | arr {r : Ref} {vs : List Value} {ds : List Json} (hn : st.node r = .list vs)
    (h : LoadedItems st vs ds) : Loaded st (.ref r) (.arr ds)
  | obj {r : Ref} {fields : Fields Value} {ms : List (Text × Json)}
    (hn : st.node r = .table (fields.map fun (name, v) => (.str name, v)))
    (h : LoadedMembers st fields ms) : Loaded st (.ref r) (.obj ms)

inductive LoadedItems (st : Store) : List Value → List Json → Prop
  | nil : LoadedItems st [] []
  | cons {v : Value} {d : Json} {vs : List Value} {ds : List Json} (h : Loaded st v d)
    (hs : LoadedItems st vs ds) : LoadedItems st (v :: vs) (d :: ds)

/-- Each field has the name of its member. -/
inductive LoadedMembers (st : Store) : Fields Value → List (Text × Json) → Prop
  | nil : LoadedMembers st [] []
  | cons {name : Text} {v : Value} {d : Json} {fields : Fields Value} {ms : List (Text × Json)}
    (h : Loaded st v d) (hs : LoadedMembers st fields ms) :
    LoadedMembers st ((name, v) :: fields) ((name, d) :: ms)

end

variable {st st' : Store}

mutual

theorem Loaded.extend {v : Value} {d : Json} (h : Loaded st v d) (he : Extends st st') :
    Loaded st' v d := by
  cases h with
  | null => exact .null
  | bool b => exact .bool b
  | int n => exact .int n
  | float x => exact .float x
  | str t => exact .str t
  | arr hn h => exact .arr (he.node_eq_of_ne hn Node.noConfusion) (h.extend he)
  | obj hn h => exact .obj (he.node_eq_of_ne hn Node.noConfusion) (h.extend he)

theorem LoadedItems.extend {vs : List Value} {ds : List Json} (h : LoadedItems st vs ds)
    (he : Extends st st') : LoadedItems st' vs ds := by
  cases h with
  | nil => exact .nil
  | cons h hs => exact .cons (h.extend he) (hs.extend he)

theorem LoadedMembers.extend {fields : Fields Value} {ms : List (Text × Json)}
    (h : LoadedMembers st fields ms) (he : Extends st st') : LoadedMembers st' fields ms := by
  cases h with
  | nil => exact .nil
  | cons h hs => exact .cons (h.extend he) (hs.extend he)

end

theorem LoadedMembers.names_eq {fields : Fields Value} {ms : List (Text × Json)}
    (h : LoadedMembers st fields ms) : Fields.names fields = Fields.names ms := by
  induction ms generalizing fields with
  | nil =>
    cases h
    rfl
  | cons m ms ih =>
    cases h with
    | cons _ hvs => exact congrArg (_ :: ·) (ih hvs)

theorem LoadedMembers.exists_get? {fields : Fields Value} {ms : List (Text × Json)}
    (h : LoadedMembers st fields ms) {name : Text} {d : Json}
    (hd : Fields.get? name ms = some d) :
    ∃ v, Fields.get? name fields = some v ∧ Loaded st v d := by
  induction ms generalizing fields with
  | nil => cases hd
  | cons m ms ih =>
    cases h with
    | @cons other v _ _ _ hv hvs =>
      rw [Fields.get?_cons] at hd ⊢
      split at hd
      · next hn =>
        cases hd
        exact ⟨v, if_pos hn, hv⟩
      · next hn =>
        rw [if_neg hn]
        exact ih hvs hd

/-- What `load` answers, and the store after it. -/
def LoadsTo (st : Store) (d : Json) : Prop :=
  Extends st (load d st).2 ∧ Loaded (load d st).2 (load d st).1 d

theorem loadItems_loaded {ds : List Json} (h : ∀ d ∈ ds, ∀ st : Store, st.LoadsTo d) (st : Store) :
    Extends st (loadItems ds st).2 ∧ LoadedItems (loadItems ds st).2 (loadItems ds st).1 ds := by
  induction ds generalizing st with
  | nil => exact ⟨.refl st, .nil⟩
  | cons d ds ih =>
    obtain ⟨hfirst, hrest⟩ := List.forall_mem_cons.mp h
    obtain ⟨he, hd⟩ := hfirst st
    obtain ⟨he', hds⟩ := ih hrest (load d st).2
    rw [loadItems]
    exact ⟨he.trans he', .cons (hd.extend he') hds⟩

theorem loadMembers_loaded {ms : List (Text × Json)}
    (h : ∀ m ∈ ms, ∀ st : Store, st.LoadsTo m.2) (st : Store) :
    Extends st (loadMembers ms st).2 ∧
      LoadedMembers (loadMembers ms st).2 (loadMembers ms st).1 ms := by
  induction ms generalizing st with
  | nil => exact ⟨.refl st, .nil⟩
  | cons m ms ih =>
    obtain ⟨name, d⟩ := m
    obtain ⟨hfirst, hrest⟩ := List.forall_mem_cons.mp h
    obtain ⟨he, hd⟩ := hfirst st
    obtain ⟨he', hms⟩ := ih hrest (load d st).2
    rw [loadMembers]
    exact ⟨he.trans he', .cons (hd.extend he') hms⟩

/-- **What `load` answers is the decoded document**, and nothing that stood in the store changes. -/
theorem load_loaded (d : Json) (st : Store) : st.LoadsTo d := by
  induction d using Json.induction generalizing st with
  | null => exact ⟨.refl st, .null⟩
  | bool b => exact ⟨.refl st, .bool b⟩
  | int n => exact ⟨.refl st, .int n⟩
  | float x => exact ⟨.refl st, .float x⟩
  | str t => exact ⟨.refl st, .str t⟩
  | arr ds ih =>
    obtain ⟨he, hds⟩ := loadItems_loaded ih st
    have halloc := extends_alloc (loadItems ds st).2 (.list (loadItems ds st).1)
    unfold LoadsTo
    rw [load]
    exact ⟨he.trans halloc, .arr (node_alloc_self _ _) (hds.extend halloc)⟩
  | obj ms ih =>
    obtain ⟨he, hms⟩ := loadMembers_loaded ih st
    have halloc := extends_alloc (loadMembers ms st).2
      (.table ((loadMembers ms st).1.map fun (name, v) => (.str name, v)))
    unfold LoadsTo
    rw [load]
    exact ⟨he.trans halloc, .obj (node_alloc_self _ _) (hms.extend halloc)⟩

/-! ### and encoded again -/

mutual

/-- An exact document is what its value looks like. -/
theorem Loaded.depicts {v : Value} {d : Json} (h : Loaded st v d) (hd : d.Exact) :
    st.Depicts v d := by
  cases h with
  | null => exact .scalar .null
  | bool b => exact .scalar (.bool b)
  | int n =>
    cases hd with
    | int hn => exact .scalar (.int hn)
  | float x => exact .scalar (.float x)
  | str t => exact .scalar (.str t)
  | arr hn h =>
    cases hd with
    | arr hd => exact .items (st.content_eq_items_iff.mpr (Or.inl hn)) (h.depicts hd)
  | obj hn h =>
    cases hd with
    | obj _ hd => exact .entries (st.content_eq_entries_iff.mpr (Or.inl hn)) (h.depicts hd)

theorem LoadedItems.depicts {vs : List Value} {ds : List Json} (h : LoadedItems st vs ds)
    (hd : ∀ d ∈ ds, d.Exact) : st.DepictsItems vs ds := by
  cases h with
  | nil => exact .nil
  | cons h hs =>
    obtain ⟨hfirst, hrest⟩ := List.forall_mem_cons.mp hd
    exact .cons (h.depicts hfirst) (hs.depicts hrest)

theorem LoadedMembers.depicts {fields : Fields Value} {ms : List (Text × Json)}
    (h : LoadedMembers st fields ms) (hd : ∀ m ∈ ms, m.2.Exact) :
    st.DepictsEntries (fields.map fun (name, v) => (.str name, v)) ms := by
  cases h with
  | nil => exact .nil
  | cons h hs =>
    obtain ⟨hfirst, hrest⟩ := List.forall_mem_cons.mp hd
    exact .cons (.str _) (h.depicts hfirst) (hs.depicts hrest)

end

/-- A class whose objects have a table of attributes, or an object of such a class. -/
inductive NamesRecord (st : Store) : Template → Prop
  | kind (k : Kind) : NamesRecord st (.record k)
  | object {r : Ref} {k : Kind} {attributes : Attributes} (hn : st.node r = .record k attributes) :
    NamesRecord st (st.templateOf (.ref r))

theorem NamesRecord.exists_kind {template : Template} (h : st.NamesRecord template) :
    ∃ k, template = .record k := by
  cases h with
  | kind k => exact ⟨k, rfl⟩
  | @object r k attributes hn =>
    unfold templateOf
    simp only [hn]
    cases k <;> exact ⟨_, rfl⟩

/-- The attributes of an object are the members of a document. -/
def Carries (st : Store) (v : Value) (ms : List (Text × Json)) : Prop :=
  ∃ r k fields, v = .ref r ∧ st.node r = .record k (.own fields) ∧ LoadedMembers st fields ms

theorem Carries.depicts {v : Value} {ms : List (Text × Json)} (h : st.Carries v ms)
    (hms : (Json.obj ms).Exact) : st.Depicts v (.obj ms) := by
  obtain ⟨r, k, fields, rfl, hn, hfields⟩ := h
  cases hms with
  | obj _ hms =>
    exact .entries (st.content_eq_entries_iff.mpr (Or.inr ⟨k, _, hn, rfl⟩)) (hfields.depicts hms)

/-- A new object of the kind of the template has the members for its attributes. -/
theorem revive_record {t : Text} {ms : List (Text × Json)} (ht : Json.ofText t = .ok (.obj ms))
    (k : Kind) : ∃ r fields st', st.revive (.record k) t = .ok (.ref r, st') ∧ st.size ≤ r ∧
      Extends st st' ∧ st'.node r = .record k (.own fields) ∧ LoadedMembers st' fields ms := by
  obtain ⟨he, hms⟩ := @loadMembers_loaded ms (fun m _ => load_loaded m.2) st
  have halloc := extends_alloc (loadMembers ms st).2 (.record k (.own (loadMembers ms st).1))
  unfold revive
  rw [ht]
  exact ⟨_, _, _, rfl, he.size_le, he.trans halloc, node_alloc_self _ _, hms.extend halloc⟩

/-- What `revive` answers: an object with the members for its attributes. -/
theorem revive_eq {template : Template} {t : Text} {ms : List (Text × Json)}
    (ht : Json.ofText t = .ok (.obj ms)) (htemplate : st.NamesRecord template) :
    ∃ v st', st.revive template t = .ok (v, st') ∧ st'.Carries v ms := by
  obtain ⟨k, rfl⟩ := htemplate.exists_kind
  obtain ⟨r, fields, st', hrevive, -, -, hn, hms⟩ := revive_record ht k
  exact ⟨.ref r, st', hrevive, r, k, fields, rfl, hn, hms⟩

theorem exists_members_of_revive_eq_ok {template : Template} {t : Text} {v : Value}
    (h : st.revive template t = .ok (v, st')) : ∃ ms, Json.ofText t = .ok (.obj ms) := by
  unfold revive at h
  split at h
  · cases h
  · next ms ht => exact ⟨ms, ht⟩
  · cases h

/-- An object that carries an exact document is written as the document is. -/
theorem revive_toJson_eq {template : Template} {t : Text} {ms : List (Text × Json)}
    (ht : Json.ofText t = .ok (.obj ms)) (hms : (Json.obj ms).Exact)
    (htemplate : st.NamesRecord template) :
    ∃ v st', st.revive template t = .ok (v, st') ∧ st'.Carries v ms ∧
      st'.toJson v = .ok (Json.obj ms).render := by
  obtain ⟨v, st', hrevive, hcarries⟩ := revive_eq ht htemplate
  exact ⟨v, st', hrevive, hcarries, (hcarries.depicts hms).toJson⟩

/-- **Which attributes a revived object has.** They have the names of the members in the text, each
where it first comes up there, and each has what the last member of its name is decoded to. -/
theorem revive_attributes {template : Template} {t : Text} {raw : List (Text × Json)}
    (htemplate : st.NamesRecord template) (ht : Json.Spelled t (.obj raw)) :
    ∃ r k fields st', st.revive template t = .ok (.ref r, st') ∧
      st'.node r = .record k (.own fields) ∧
      Fields.names fields = (Fields.names raw).eraseDups ∧
      ∀ name d, Fields.get? name raw.reverse = some d →
        ∃ v, Fields.get? name fields = some v ∧ Loaded st' v d.merged := by
  have hmerged : (Json.obj raw).merged
      = .obj (Fields.collapse (raw.map fun m => (m.1, Json.merged m.2))) := Json.merged_obj raw
  have hread := Json.ofText_eq_ok_iff.mpr ⟨_, ht, hmerged⟩
  obtain ⟨v, st', hrevive, r, k, fields, rfl, hn, hfields⟩ := revive_eq hread htemplate
  refine ⟨r, k, fields, st', hrevive, hn, ?_, fun name d hd => ?_⟩
  · rw [hfields.names_eq, Json.names_merged hmerged]
  · have hlast := Json.get?_merged hmerged name
    rw [hd] at hlast
    exact hfields.exists_get? hlast

/-- **Reviving loses nothing, and it settles the text.** Of a text without surrogates that spells an
object without floating point numbers, a revived object has the members for its attributes, those of
one name put together. Its text is the same for every template, and it is revived with the same
attributes, and written as it is, for every template. -/
theorem revive_toJson {template : Template} {t : Text} {raw : Json} {v : Value}
    (htemplate : st.NamesRecord template) (ht : Json.SurrogateFree t) (hraw : Json.Spelled t raw)
    (hnumbers : raw.Integral) (h : st.revive template t = .ok (v, st')) :
    ∃ ms u, raw.merged = .obj ms ∧ (Fields.names ms).Nodup ∧ Json.ofText t = .ok (.obj ms) ∧
      st'.Carries v ms ∧ st'.toJson v = .ok u ∧ Json.ofText u = .ok (.obj ms) ∧
      ∀ (st₁ : Store) (template₁ : Template), st₁.NamesRecord template₁ →
        (∃ v₁ st₂, st₁.revive template₁ t = .ok (v₁, st₂) ∧ st₂.Carries v₁ ms ∧
          st₂.toJson v₁ = .ok u) ∧
        (∃ v₁ st₂, st₁.revive template₁ u = .ok (v₁, st₂) ∧ st₂.Carries v₁ ms ∧
          st₂.toJson v₁ = .ok u) := by
  obtain ⟨ms, hms⟩ := exists_members_of_revive_eq_ok h
  have hmerged : raw.merged = .obj ms := by
    have hread := Json.ofText_eq_ok_iff.mpr ⟨raw, hraw, rfl⟩
    exact Except.ok.inj (hread.symm.trans hms)
  have hexact : (Json.obj ms).Exact := by
    rw [← hmerged]
    exact (hraw.exact ht hnumbers).merged
  have hdistinct : (Json.obj ms).Distinct := by
    rw [← hmerged]
    exact Json.distinct_merged raw
  have hnames : (Fields.names ms).Nodup := by
    cases hdistinct with
    | obj hn _ => exact hn
  have hu : Json.ofText (Json.obj ms).render = .ok (.obj ms) := by
    rw [hexact.ofText_render, hdistinct.merged_eq]
  obtain ⟨v', st'', hrevive, hcarries, hjson⟩ := revive_toJson_eq hms hexact htemplate
  rw [h] at hrevive
  cases hrevive
  exact ⟨ms, _, hmerged, hnames, hms, hcarries, hjson, hu, fun st₁ template₁ h₁ =>
    ⟨revive_toJson_eq hms hexact h₁, revive_toJson_eq hu hexact h₁⟩⟩

/-- Two members of one name, with a zero that has a sign and a surrogate that stands alone. -/
def repeatedMembers : Text := "\x7b\x22a\x22:-0, \x22a\x22:\x22\\ud800\x22\x7d"

def loneSurrogate : Text := [⟨0xd800, by decide⟩]

theorem spelled_repeatedMembers :
    Json.Spelled repeatedMembers (.obj [("a", .int 0), ("a", .str loneSurrogate)]) := by
  have hname := Json.spellsName_literal (Json.stable_ofString "a")
  have hzero : Json.Spells "-0" (.int 0) :=
    .numeral (@Json.SpellsNumeral.mk true [CodePoint.zero] [] [] none
      ⟨List.forall_mem_singleton.mpr rfl, List.cons_ne_nil _ _, fun _ => rfl⟩ Json.digits_nil
      .none) rfl
  have hlone : Json.Spells "\x22\\ud800\x22" (.str loneSurrogate) :=
    .string (.mk (Json.spellsPieces_singleton (.unit rfl)))
  have hblank : Json.Blank [CodePoint.space] := List.forall_mem_singleton.mpr rfl
  have hobject := Json.Spells.object (b := []) Json.blank_nil
    (.more hname hzero Json.blank_nil hblank (.last hname hlone Json.blank_nil))
  exact @Json.Spelled.mk [] _ [] _ Json.blank_nil hobject Json.blank_nil

theorem integral_repeatedMembers :
    (Json.obj [("a", .int 0), ("a", .str loneSurrogate)]).Integral :=
  .obj (List.forall_mem_cons.mpr ⟨.int 0, List.forall_mem_singleton.mpr (.str _)⟩)

theorem revive_toJson_repeatedMembers : ∃ v st' ms u,
    ({} : Store).revive (.record .rectangle) repeatedMembers = .ok (v, st') ∧ st'.Carries v ms ∧
      st'.toJson v = .ok u ∧ Json.ofText u = .ok (.obj ms) := by
  have htemplate : ({} : Store).NamesRecord (.record .rectangle) := .kind .rectangle
  have hread : Json.ofText repeatedMembers = .ok (.obj [("a", .str loneSurrogate)]) :=
    Json.ofText_eq_ok_iff.mpr ⟨_, spelled_repeatedMembers, rfl⟩
  obtain ⟨v, st', hrevive, _⟩ := revive_eq hread htemplate
  obtain ⟨ms, u, _, _, _, hcarries, hjson, hu, _⟩ := revive_toJson htemplate
    (Json.surrogateFree_ofString _) spelled_repeatedMembers integral_repeatedMembers hrevive
  exact ⟨v, st', ms, u, hrevive, hcarries, hjson, hu⟩

end SelectorForge.Store
