import SelectorForge.Proofs.Store.Growth
import SelectorForge.Proofs.Store.Revival
import SelectorForge.Session.Portrait

/-!
# What a represented selector tells about itself

An object that stands for a compound selector has the text of this selector, and its portrait is the
portrait of this selector. Asking for it makes copies of the lists and changes nothing.

* `Store.Configures`               a value is a configuration;
* `Layout.Represents.renderValue`   the text;
* `Layout.Represents.run_portrait`  the portrait.
-/

namespace SelectorForge

open Effect Session

/-- A value is a configuration, with attributes that nobody else can change. -/
def Store.Configures (st : Store) (v : Value) (config : Config) : Prop :=
  ∃ r fields, v = .ref r ∧ st.node r = .record .config (.own fields) ∧
    Store.recordAttribute .config fields Name.separator = .ok (.str config.separator) ∧
    Store.recordAttribute .config fields Name.pad = .ok (.bool config.pad)

theorem Store.Configures.extend {st st' : Store} {v : Value} {config : Config}
    (h : st.Configures v config) (he : Store.Extends st st') : st'.Configures v config := by
  obtain ⟨r, fields, hv, hn, hread⟩ := h
  exact ⟨r, fields, hv, he.node_eq_of_ne hn Node.noConfusion, hread⟩

theorem Store.Configures.lookup_separator {st : Store} {v : Value} {config : Config}
    (h : st.Configures v config) :
    st.lookup v Name.separator = .ok (.str config.separator) := by
  obtain ⟨r, fields, rfl, hn, hread, _⟩ := h
  simp only [Store.lookup, hn]
  exact hread

namespace Layout

variable {l : Layout} {s : Compound} {st st' : Store} {r : Ref}

theorem Represents.extend (h : l.Represents st r s) (he : Store.Extends st st') :
    l.Represents st' r s :=
  h.congr (he.node_eq r h.lt_size) fun _ hs => he.node_eq _ (h.list_lt_size hs)

theorem Represents.items_list (h : l.Represents st r s) (stage : Stage)
    (hs : stage.isSingleton = false) :
    st.items (.ref (l.lists stage)) = .ok ((s.held stage).map Value.str) := by
  simp only [Store.items, h.list stage hs]

/-! ### the text -/

theorem mapM_plain (st : Store) (n : Nat) (f : Text → Text) (ts : List Text) :
    (ts.map Value.str).mapM (fun v => (st.plain (n + 1) [] v).map f) = .ok (ts.map f) := by
  induction ts with
  | nil => rfl
  | cons t ts ih =>
    rw [List.map_cons, List.mapM_cons, ih]
    rfl

theorem recordAttribute_slot (l : Layout) (s : Compound) (stage : Stage) :
    Store.recordAttribute .selector (l.fields s) (Name.slot stage) = .ok (l.slotValue s stage) := by
  rw [Store.recordAttribute, fields_eq, get?_slot]

theorem Represents.selectorText (h : l.Represents st r s) (n : Nat)
    (hconfig : st.Configures l.config s.config) :
    st.selectorText (n + 2) [] (l.fields s) = .ok s.render := by
  have hown : Store.recordAttribute .selector (l.fields s) Name.ownConfig = .ok l.config := rfl
  have helement : Store.recordAttribute .selector (l.fields s) Name.ownElement
      = .ok (occupantValue s.element) := recordAttribute_slot l s .element
  have hid : Store.recordAttribute .selector (l.fields s) Name.ownId
      = .ok (occupantValue s.id) := recordAttribute_slot l s .id
  have hclasses : Store.recordAttribute .selector (l.fields s) Name.ownClasses
      = .ok (.ref (l.lists .styleClass)) := recordAttribute_slot l s .styleClass
  have hattributes : Store.recordAttribute .selector (l.fields s) Name.ownAttributes
      = .ok (.ref (l.lists .attr)) := recordAttribute_slot l s .attr
  have hpseudoClasses : Store.recordAttribute .selector (l.fields s) Name.ownPseudoClasses
      = .ok (.ref (l.lists .pseudoClass)) := recordAttribute_slot l s .pseudoClass
  have hpseudoElement : Store.recordAttribute .selector (l.fields s) Name.ownPseudoElement
      = .ok (occupantValue s.pseudoElement) := recordAttribute_slot l s .pseudoElement
  have hjoiner : st.joiner (.str s.config.separator) = .ok (.text s.config.separator) := rfl
  unfold Store.selectorText
  simp only [hown, helement, hid, hclasses, hattributes, hpseudoClasses, hpseudoElement,
    hconfig.lookup_separator, hjoiner, h.items_list .styleClass rfl, h.items_list .attr rfl,
    h.items_list .pseudoClass rfl, mapM_plain, bind, Except.bind]
  -- an element without characters counts as none, and adds none
  unfold Compound.render
  cases s.id <;> cases s.pseudoElement <;> rcases s.element with _ | (_ | _) <;> rfl

/-- The text of the object is the text of the selector it stands for. -/
theorem Represents.renderValue (h : l.Represents st r s)
    (hconfig : st.Configures l.config s.config) :
    st.renderValue (.ref r) = .ok (.str s.render) := by
  unfold Store.renderValue Store.displayFuel Store.rendered
  simp only [h.object, Store.fields_own, h.selectorText (4 * st.size + 1) hconfig]
  rfl

/-! ### the portrait -/

/-- A property that is no list answers with the attribute behind it. -/
theorem Represents.run_get_single (h : l.Represents st r s) (notes : List Text)
    {property hidden : Text} {v : Value}
    (hproperty : Store.selectorProperties.lookup property = some hidden)
    (hlist : Store.listProperties.contains property = false)
    (hv : st.lookup (.ref r) hidden = .ok v) :
    (get (.ref r) property).run ⟨st, notes⟩ = (.ok v, ⟨st, notes⟩) := by
  have hfound : st.property? (.ref r) property = some hidden := by
    simp only [Store.property?, h.object, hproperty]
  unfold Effect.get
  rw [run_bind, run_query, hfound]
  simp only
  unfold getProperty
  rw [run_bind, run_query, hv]
  simp only [hlist]
  rfl

/-- A list property answers with a copy. -/
theorem Represents.run_get_list (h : l.Represents st r s) (notes : List Text) {property : Text}
    {stage : Stage} (hs : stage.isSingleton = false)
    (hproperty : Store.selectorProperties.lookup property = some (Name.slot stage))
    (hlist : Store.listProperties.contains property = true) :
    (get (.ref r) property).run ⟨st, notes⟩ = (.ok (.ref st.size),
      ⟨(st.alloc (.list ((s.held stage).map Value.str))).2, notes⟩) := by
  have hfound : st.property? (.ref r) property = some (Name.slot stage) := by
    simp only [Store.property?, h.object, hproperty]
  have hslot : l.slotValue s stage = .ref (l.lists stage) := by
    rw [slotValue, if_neg (by simp [hs])]
  unfold Effect.get
  rw [run_bind, run_query, hfound]
  simp only
  unfold getProperty
  rw [run_bind, run_query, h.lookup_slot, hslot]
  simp only [hlist, if_true]
  rw [run_bind, run_query, h.items_list stage hs]
  rfl

theorem run_stageName (latest : Option Stage) (w : World) :
    (stageName (latestValue latest)).run w = (.ok (latest.map Stage.memberName), w) := by
  cases latest with
  | none => rfl
  | some stage =>
    have hname : w.store.lookup (.stage stage) Name.name = .ok (.str stage.memberName) := rfl
    show (stageName (.stage stage)).run w = _
    unfold stageName
    simp only
    rw [run_bind, run_query, hname]
    rfl

theorem run_documentOf_occupant (t : Option Text) (w : World) :
    (documentOf (occupantValue t)).run w = (.ok ((t.map Json.str).getD .null), w) := by
  cases t <;> rfl

theorem mapM_toDocument (st : Store) (ts : List Text) :
    (ts.map Value.str).mapM st.toDocument = .ok (ts.map Json.str) := by
  induction ts with
  | nil => rfl
  | cons t ts ih =>
    rw [List.map_cons, List.mapM_cons, ih]
    rfl

theorem run_documentsOf_list {q : Ref} {ts : List Text} {w : World}
    (hq : w.store.node q = .list (ts.map Value.str)) :
    (documentsOf (.ref q)).run w = (.ok (ts.map Json.str), w) := by
  have hitems : w.store.items (.ref q) = .ok (ts.map Value.str) := by
    simp only [Store.items, hq]
  unfold documentsOf
  rw [run_bind, run_query, hitems]
  simp only
  rw [run_query, mapM_toDocument]

/-- A list property, as it stands in an answer. -/
theorem Represents.run_list_bind {α : Type} (h : l.Represents st r s) (notes : List Text)
    (property : Text) (stage : Stage) (hs : stage.isSingleton = false)
    (hproperty : Store.selectorProperties.lookup property = some (Name.slot stage))
    (hlist : Store.listProperties.contains property = true) (f : List Json → Effect α) :
    ∃ st', Store.Extends st st' ∧ l.Represents st' r s ∧
      (get (.ref r) property >>= fun v => documentsOf v >>= f).run ⟨st, notes⟩
        = (f ((s.held stage).map Json.str)).run ⟨st', notes⟩ := by
  have he := Store.extends_alloc st (.list ((s.held stage).map Value.str))
  refine ⟨_, he, h.extend he, ?_⟩
  rw [run_bind, h.run_get_list notes hs hproperty hlist]
  simp only
  rw [run_bind, run_documentsOf_list (Store.node_alloc_self _ _)]

/-- A property with one value, as it stands in an answer. -/
theorem Represents.run_single_bind {α : Type} (h : l.Represents st r s) (notes : List Text)
    {property hidden : Text} {t : Option Text}
    (hproperty : Store.selectorProperties.lookup property = some hidden)
    (hlist : Store.listProperties.contains property = false)
    (hv : st.lookup (.ref r) hidden = .ok (occupantValue t)) (f : Json → Effect α) :
    (get (.ref r) property >>= fun v => documentOf v >>= f).run ⟨st, notes⟩
      = (f ((t.map Json.str).getD .null)).run ⟨st, notes⟩ := by
  rw [run_bind, h.run_get_single notes hproperty hlist hv]
  simp only
  rw [run_bind, run_documentOf_occupant]

/-- **The portrait of the object** is the portrait of the selector it stands for. -/
theorem Represents.run_portrait (h : l.Represents st r s)
    (hconfig : st.Configures l.config s.config) (notes : List Text) :
    ∃ st', Store.Extends st st' ∧
      (portrait (.ref r)).run ⟨st, notes⟩ = (.ok s.portrait, ⟨st', notes⟩) := by
  unfold Session.portrait
  rw [run_bind, h.run_get_single notes (by decide) (by decide) h.lookup_ownStage]
  simp only
  rw [run_bind, run_stageName]
  simp only
  rw [h.run_single_bind notes (by decide) (by decide) (h.lookup_slot .element),
    h.run_single_bind notes (by decide) (by decide) (h.lookup_slot .id)]
  obtain ⟨st₁, he₁, h₁, hrun⟩ := h.run_list_bind notes Name.classNames .styleClass rfl
    (by decide) (by decide) _
  rw [hrun]
  obtain ⟨st₂, he₂, h₂, hrun⟩ := h₁.run_list_bind notes Name.attributes .attr rfl
    (by decide) (by decide) _
  rw [hrun]
  obtain ⟨st₃, he₃, h₃, hrun⟩ := h₂.run_list_bind notes Name.pseudoClasses .pseudoClass rfl
    (by decide) (by decide) _
  have he := he₁.trans (he₂.trans he₃)
  rw [hrun, h₃.run_single_bind notes (by decide) (by decide) (h₃.lookup_slot .pseudoElement),
    textOf, run_bind, run_query, h₃.renderValue (hconfig.extend he)]
  exact ⟨st₃, he, rfl⟩

end Layout

end SelectorForge
