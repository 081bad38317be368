import SelectorForge.Proofs.Store.Areas

/-!
# Value objects

Combinations, configurations and rectangles are made of attributes that they declare. If these are
texts and truth values, or what a document is decoded to, such an object is encoded and revived as
one that has the same attributes in the same order and is equal to it. A combinator comes back as
the text that it stands for, and this is equal to it, too.

* `Store.Recalled`      a value is read back as a document;
* `Store.ValueObject`   the objects, with the members of their documents;
* `Store.Displayed`     what they have in common;
* `Store.Renewed`       a value and what has become of it;
* `Store.Successor`     an object that has been revived from the document of another one;
* `ValueObject.revive`  what a value object is revived as;
* `Successor.same`      both are equal, and so are their attributes and areas.
-/

namespace SelectorForge.Store

variable {st st' : Store} {v v' x : Value} {r r' : Ref} {d : Json} {kind : Kind}
  {ms : List (Text × Json)}

/-! ### values that are read back -/

/-- A value has the document that it is decoded from; what counts as a text has its text. -/
inductive Recalled (st : Store) : Value → Json → Prop
  | loaded {v : Value} {d : Json} (h : Loaded st v d) : Recalled st v d
  | text {v : Value} {t : Text} (h : asText? v = some t) : Recalled st v (.str t)

theorem Recalled.depicts (h : st.Recalled v d) (hd : d.Exact) : st.Depicts v d := by
  cases h with
  | loaded h => exact h.depicts hd
  | text h =>
    cases v with
    | str =>
      cases h
      exact .scalar (.str _)
    | combinator =>
      cases h
      exact .scalar (.combinator _)
    | null | bool | int | float | octets | stage | ref => cases h

theorem depictsEntries_of_recalled {fields : Fields Value}
    (h : List.Forall₂ (fun f m => f.1 = m.1 ∧ st.Recalled f.2 m.2) fields ms)
    (he : ∀ m ∈ ms, m.2.Exact) :
    st.DepictsEntries (fields.map fun (name, v) => (.str name, v)) ms := by
  induction h with
  | nil => exact .nil
  | @cons field m _ _ hfirst _ ih =>
    obtain ⟨name, v⟩ := field
    obtain ⟨_, d⟩ := m
    obtain ⟨rfl, hv⟩ := hfirst
    obtain ⟨hd, he⟩ := List.forall_mem_cons.mp he
    exact .cons (.str name) (hv.depicts hd) (ih he)

/-- A value and what it has been read back as. -/
inductive Renewed (st : Store) (v v' : Value) : Prop
  | duplicate (h : st.Duplicate v v')
  | text {t : Text} (h : asText? v = some t) (h' : asText? v' = some t)

theorem Recalled.renewed (h : st.Recalled v d) (h' : Loaded st v' d) (he : d.Exact)
    (hd : d.Distinct) : st.Renewed v v' := by
  cases h with
  | loaded h => exact .duplicate ⟨d, h, h', he, hd⟩
  | text h =>
    cases h'
    exact .text h rfl

theorem Renewed.same (h : st.Renewed v v') : st.Same v v' := by
  cases h with
  | duplicate h => exact h.same
  | text h h' => exact same_of_text h h'

/-- They are equal inside of objects, too. -/
theorem Renewed.equalWithin (h : st.Renewed v v') :
    equalWithin st (2 * st.size + 1) v v' = .ok true ∧
      equalWithin st (2 * st.size + 1) v' v = .ok true := by
  cases h with
  | duplicate h =>
    exact ⟨equalWithin_of_equalBy (h.equalBy (by omega)),
      equalWithin_of_equalBy (h.symm.equalBy (by omega))⟩
  | text h h' =>
    exact ⟨equalWithin_of_equalBy (equalBy_text h h'), equalWithin_of_equalBy (equalBy_text h' h)⟩

/-! ### value objects -/

/-- A value that counts as a text, and no surrogates in it are read back as a character. -/
def Written (v : Value) (t : Text) : Prop := asText? v = some t ∧ Json.Stable t

/-- Combinations and configurations of texts and truth values, and rectangles that have all their
attributes, declared ones and others, from a document: one without floating point numbers, in which
integers have few enough digits and texts are read back as they are. -/
inductive ValueObject (st : Store) : Kind → Value → List (Text × Json) → Prop
  | combination {r : Ref} {left combinator right : Value} {tl tc tr : Text} {pad : Bool}
    (hn : st.node r = .record .combination (.own [(Name.left, left),
      (Name.combinator, combinator), (Name.right, right), (Name.pad, .bool pad)]))
    (hleft : Written left tl) (hcombinator : Written combinator tc) (hright : Written right tr) :
    ValueObject st .combination (.ref r) [(Name.left, .str tl), (Name.combinator, .str tc),
      (Name.right, .str tr), (Name.pad, .bool pad)]
  | config {r : Ref} {separator : Value} {t : Text} {pad : Bool}
    (hn : st.node r = .record .config (.own [(Name.separator, separator), (Name.pad, .bool pad)]))
    (hseparator : Written separator t) :
    ValueObject st .config (.ref r) [(Name.separator, .str t), (Name.pad, .bool pad)]
  | rectangle {r : Ref} {attributes : Attributes} {fields : Fields Value}
    {ms : List (Text × Json)} (hn : st.node r = .record .rectangle attributes)
    (hentries : st.entries attributes = fields.map fun (name, v) => (.str name, v))
    (hfields : LoadedMembers st fields ms) (he : (Json.obj ms).Exact) (hd : (Json.obj ms).Distinct)
    (hwidth : Name.width ∈ Fields.names ms) (hheight : Name.height ∈ Fields.names ms) :
    ValueObject st .rectangle (.ref r) ms

/-- An object is read back as its attributes are, and it has all attributes that its kind
declares. -/
structure Displayed (st : Store) (kind : Kind) (r : Ref) (attributes : Attributes)
    (fields : Fields Value) (ms : List (Text × Json)) : Prop where
  node : st.node r = .record kind attributes
  entries_eq : st.entries attributes = fields.map fun (name, v) => (.str name, v)
  recalled : List.Forall₂ (fun f m => f.1 = m.1 ∧ st.Recalled f.2 m.2) fields ms
  exact : (Json.obj ms).Exact
  distinct : (Json.obj ms).Distinct
  declared : ∃ names, kind.declared? = some names ∧ ∀ name ∈ names, name ∈ Fields.names ms

theorem LoadedMembers.recalled {fields : Fields Value} (h : LoadedMembers st fields ms) :
    List.Forall₂ (fun f m => f.1 = m.1 ∧ st.Recalled f.2 m.2) fields ms := by
  induction ms generalizing fields with
  | nil =>
    cases h
    exact .nil
  | cons m ms ih =>
    cases h with
    | cons hv hfields => exact .cons ⟨rfl, .loaded hv⟩ (ih hfields)

/-- A table that is shared stands in the store if it has entries. -/
theorem tabled_of_entries {attributes : Attributes} {fields : Fields Value}
    (hn : st.node r = .record kind attributes)
    (h : st.entries attributes = fields.map fun (name, v) => (.str name, v))
    (hne : fields ≠ []) : st.Tabled r := by
  intro kind' table hn'
  cases hn.symm.trans hn'
  rw [entries_shared, tableEntries] at h
  split at h
  · next es hes => exact ⟨es, hes⟩
  · exact absurd (List.map_eq_nil_iff.mp h.symm) hne

theorem fields_of_entries {attributes : Attributes} {fields : Fields Value}
    (h : st.entries attributes = fields.map fun (name, v) => (.str name, v)) :
    st.fields attributes = fields := by
  rw [fields_eq_filterMap_entries, h, List.filterMap_map]
  exact List.filterMap_some

theorem ne_nil_of_mem_names {fields : Fields Value} (h : LoadedMembers st fields ms) {name : Text}
    (hname : name ∈ Fields.names ms) : fields ≠ [] := by
  rintro rfl
  cases h
  exact absurd hname List.not_mem_nil

theorem ValueObject.extend (h : st.ValueObject kind x ms) (he : Extends st st') :
    st'.ValueObject kind x ms := by
  cases h with
  | combination hn hleft hcombinator hright =>
    exact .combination (he.node_eq_of_ne hn Node.noConfusion) hleft hcombinator hright
  | config hn hseparator => exact .config (he.node_eq_of_ne hn Node.noConfusion) hseparator
  | rectangle hn hentries hfields hexact hdistinct hwidth hheight =>
    have hs := tabled_of_entries hn hentries (ne_nil_of_mem_names hfields hwidth)
    exact .rectangle (he.node_eq_of_ne hn Node.noConfusion)
      ((he.entries_eq hs hn).trans hentries) (hfields.extend he) hexact hdistinct hwidth hheight

/-- A member that is read back, with its name, and that has no name twice in it. -/
def Kept (m : Text × Json) : Prop := Json.Stable m.1 ∧ m.2.Exact ∧ m.2.Distinct

theorem exact_of_kept (h : ∀ m ∈ ms, Kept m) : (Json.obj ms).Exact :=
  .obj (fun m hm => (h m hm).1) fun m hm => (h m hm).2.1

theorem distinct_of_kept (hnames : (Fields.names ms).Nodup) (h : ∀ m ∈ ms, Kept m) :
    (Json.obj ms).Distinct :=
  .obj hnames fun m hm => (h m hm).2.2

theorem kept_text (name : String) {t : Text} (h : Written v t) :
    Kept (Text.ofString name, .str t) :=
  ⟨Json.stable_ofString name, .str h.2, .str t⟩

theorem kept_bool (name : String) (b : Bool) : Kept (Text.ofString name, .bool b) :=
  ⟨Json.stable_ofString name, .bool b, .bool b⟩

theorem displayed_of_declared {fields : Fields Value}
    (hn : st.node r = .record kind (.own fields))
    (hkind : kind.declared? = some (Fields.names ms))
    (hfields : List.Forall₂ (fun f m => f.1 = m.1 ∧ st.Recalled f.2 m.2) fields ms)
    (h : ∀ m ∈ ms, Kept m) : st.Displayed kind r (.own fields) fields ms where
  node := hn
  entries_eq := entries_own st fields
  recalled := hfields
  exact := exact_of_kept h
  distinct := distinct_of_kept (List.nodup_cons.mp (declared?_names hkind).1).2 h
  declared := ⟨_, hkind, fun _ => id⟩

theorem ValueObject.displayed (h : st.ValueObject kind x ms) :
    ∃ r attributes fields, x = .ref r ∧ st.Displayed kind r attributes fields ms := by
  cases h with
  | @combination r _ _ _ tl tc tr pad hn hleft hcombinator hright =>
    refine ⟨r, _, _, rfl, displayed_of_declared hn rfl ?_ ?_⟩
    · exact .cons ⟨rfl, .text hleft.1⟩ (.cons ⟨rfl, .text hcombinator.1⟩
        (.cons ⟨rfl, .text hright.1⟩ (.cons ⟨rfl, .loaded (.bool pad)⟩ .nil)))
    · simp only [List.forall_mem_cons]
      exact ⟨kept_text _ hleft, kept_text _ hcombinator, kept_text _ hright, kept_bool _ pad,
        fun _ hm => absurd hm List.not_mem_nil⟩
  | @config r _ t pad hn hseparator =>
    refine ⟨r, _, _, rfl, displayed_of_declared hn rfl ?_ ?_⟩
    · exact .cons ⟨rfl, .text hseparator.1⟩ (.cons ⟨rfl, .loaded (.bool pad)⟩ .nil)
    · simp only [List.forall_mem_cons]
      exact ⟨kept_text _ hseparator, kept_bool _ pad,
        fun _ hm => absurd hm List.not_mem_nil⟩
  | @rectangle r attributes fields _ hn hentries hfields he hd hwidth hheight =>
    refine ⟨r, attributes, fields, rfl, hn, hentries, hfields.recalled, he, hd, _, rfl, ?_⟩
    exact List.forall_mem_cons.mpr ⟨hwidth, List.forall_mem_singleton.mpr hheight⟩

namespace Displayed

variable {attributes : Attributes} {fields : Fields Value}

theorem toJson (h : st.Displayed kind r attributes fields ms) :
    st.toJson (.ref r) = .ok (Json.obj ms).render := by
  have hexact := h.exact
  cases hexact with | obj _ hexact =>
  have hdepicts := depictsEntries_of_recalled h.recalled hexact
  rw [← h.entries_eq] at hdepicts
  exact Depicts.toJson (.entries (st.content_eq_entries_iff.mpr
    (Or.inr ⟨kind, attributes, h.node, rfl⟩)) hdepicts)

theorem fields_eq (h : st.Displayed kind r attributes fields ms) :
    st.fields attributes = fields := fields_of_entries h.entries_eq

/-- The attributes and what has become of them. -/
theorem renewed {fields' : Fields Value} (h : st.Displayed kind r attributes fields ms)
    (h' : LoadedMembers st fields' ms) :
    List.Forall₂ (fun f f' => f.1 = f'.1 ∧ st.Renewed f.2 f'.2) fields fields' := by
  obtain ⟨-, -, hfields, hexact, hdistinct, -⟩ := h
  have hall : ∀ m ∈ ms, m.2.Exact ∧ m.2.Distinct := by
    cases hexact with | obj _ he =>
    cases hdistinct with | obj _ hd =>
    exact fun m hm => ⟨he m hm, hd m hm⟩
  clear hexact hdistinct
  induction hfields generalizing fields' with
  | nil =>
    cases h'
    exact .nil
  | @cons field m _ _ hfirst _ ih =>
    obtain ⟨name, v⟩ := field
    obtain ⟨hname, hv⟩ := hfirst
    cases h' with | cons hv' hfields' =>
    obtain ⟨⟨he, hd⟩, hall⟩ := List.forall_mem_cons.mp hall
    exact .cons ⟨hname, hv.renewed hv' he hd⟩ (ih hfields' hall)

theorem names_eq (h : st.Displayed kind r attributes fields ms) :
    Fields.names fields = Fields.names ms := by
  have hnames := h.recalled.imp fun _ _ hfm => hfm.1
  have hmapped : List.Forall₂ (· = ·) (Fields.names fields) (Fields.names ms) :=
    List.forall₂_map_left_iff.mpr (List.forall₂_map_right_iff.mpr hnames)
  exact List.forall₂_eq_eq_eq ▸ hmapped

end Displayed

/-! ### revived objects -/

/-- Objects of one kind with the same attributes, equal ones in the same order. -/
def SameAttributes (st : Store) (v v' : Value) : Prop :=
  ∃ r r' kind attributes attributes', v = .ref r ∧ v' = .ref r' ∧
    st.node r = .record kind attributes ∧ st.node r' = .record kind attributes' ∧
    List.Forall₂ (fun e e' => e.1 = e'.1 ∧ st.Same e.2 e'.2)
      (st.entries attributes) (st.entries attributes')

/-- A kind, or an object of that kind. -/
inductive NamesKind (st : Store) (kind : Kind) : Template → Prop
  | kind : NamesKind st kind (.record kind)
  | object {r : Ref} {attributes : Attributes} (hn : st.node r = .record kind attributes) :
    NamesKind st kind (st.templateOf (.ref r))

theorem NamesKind.eq_record {template : Template} (h : st.NamesKind kind template)
    {names : List Text} (hkind : kind.declared? = some names) : template = .record kind := by
  cases h with
  | kind => rfl
  | object hn =>
    unfold templateOf
    simp only [hn]
    cases kind with
    | error => cases hkind
    | plain | fixed | rectangle | config | combination | selector | builder => rfl

/-- An object that has been revived from the document of another one. -/
structure Successor (st : Store) (kind : Kind) (x : Value) (r' : Ref) (fields' : Fields Value)
    (ms : List (Text × Json)) : Prop where
  original : st.ValueObject kind x ms
  node : st.node r' = .record kind (.own fields')
  loaded : LoadedMembers st fields' ms

/-- What a value object is encoded to, and what is revived from that. -/
theorem ValueObject.revive (h : st.ValueObject kind x ms) {template : Template}
    (htemplate : st.NamesKind kind template) :
    ∃ t r' fields' st', st.toJson x = .ok t ∧ st.revive template t = .ok (.ref r', st') ∧
      st.size ≤ r' ∧ Extends st st' ∧ st'.Successor kind x r' fields' ms := by
  obtain ⟨r, attributes, fields, rfl, hd⟩ := h.displayed
  obtain ⟨names, hkind, -⟩ := hd.declared
  obtain rfl := htemplate.eq_record hkind
  have hread : Json.ofText (Json.obj ms).render = .ok (.obj ms) := by
    rw [hd.exact.ofText_render, hd.distinct.merged_eq]
  obtain ⟨r', fields', st', hrevive, hsize, he, hn', hfields'⟩ := revive_record hread kind
  exact ⟨_, r', fields', st', hd.toJson, hrevive, hsize, he, h.extend he, hn', hfields'⟩

namespace Successor

variable {fields' : Fields Value}

theorem sameAttributes (h : st.Successor kind x r' fields' ms) :
    st.SameAttributes x (.ref r') := by
  obtain ⟨r, attributes, fields, rfl, hd⟩ := h.original.displayed
  refine ⟨r, r', kind, attributes, _, rfl, rfl, hd.node, h.node, ?_⟩
  rw [hd.entries_eq, entries_own]
  refine List.forall₂_map_left_iff.mpr (List.forall₂_map_right_iff.mpr ?_)
  exact (hd.renewed h.loaded).imp fun _ _ ⟨hname, hv⟩ => ⟨congrArg Value.str hname, hv.same⟩

/-- **A revived object is equal to its original**, in both directions. -/
theorem same (h : st.Successor kind x r' fields' ms) : st.Same x (.ref r') := by
  obtain ⟨r, attributes, fields, rfl, hd⟩ := h.original.displayed
  obtain ⟨names, hkind, hnames⟩ := hd.declared
  obtain ⟨-, hreserved, -⟩ := declared?_names hkind
  have hanswers : ∀ name ∈ names, ∃ v v', st.lookup (.ref r) name = .ok v ∧
      st.lookup (.ref r') name = .ok v' ∧ st.Renewed v v' := by
    intro name hname
    have hget := get?_forall₂ (hd.renewed h.loaded) name
    rw [hd.names_eq] at hget
    obtain ⟨v, v', hv, hv', hsame⟩ := hget.resolve_left fun hnone => hnone.1 (hnames name hname)
    have hreserved := hreserved name (List.mem_cons_of_mem _ hname)
    refine ⟨v, v', ?_, ?_, hsame⟩
    · rw [lookup_record hd.node hreserved, hd.fields_eq, recordAttribute, hv]
    · rw [lookup_record h.node hreserved, fields_own, recordAttribute, hv']
  constructor
  · refine equal_of_declared hd.node h.node hkind fun name hname => ?_
    obtain ⟨v, v', hv, hv', hsame⟩ := hanswers name hname
    exact ⟨v, v', hv, hv', hsame.equalWithin.1⟩
  · refine equal_of_declared h.node hd.node hkind fun name hname => ?_
    obtain ⟨v, v', hv, hv', hsame⟩ := hanswers name hname
    exact ⟨v', v, hv', hv, hsame.equalWithin.2⟩

/-- Both rectangles have the same area. -/
theorem area (h : st.Successor .rectangle x r' fields' ms) :
    st.Again (fun st => st.area x) (fun st => st.area (.ref r')) := by
  cases h.original with
  | rectangle hn hentries hfields he hd hwidth hheight =>
    rw [← fields_of_entries hentries] at hfields
    exact area_again hn h.node hfields h.loaded he hd hwidth hheight

end Successor

end SelectorForge.Store
