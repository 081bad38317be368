import SelectorForge.Store.Encode
import Mathlib.Logic.Relation
import Mathlib.Data.List.Perm.Subperm

/-!
# What values look like

The document of a value, from what the nodes of a store hold and without regard to how the encoder
finds its way:

* `ScalarImage`, `KeyImage`   scalars, and the keys of tables as names of members;
* `Store.content`             what a node holds: items, or entries with keys;
* `Store.Holds`               a value holds another one;
* `Store.Depicts`             the document of a value, with a member for each entry;
* `Depicts.toDocument`        this is the document that the encoder answers.

A value with a document does not hold itself, so the encoder does not come back to a node on its way
and its fuel is enough.
-/

namespace SelectorForge

/-! ### scalars and keys -/

inductive ScalarImage : Value → Json → Prop
  | null : ScalarImage .null .null
  | bool (b : Bool) : ScalarImage (.bool b) (.bool b)
  | int {n : Int} (h : Number.FitsDigits n) : ScalarImage (.int n) (.int n)
  | float (x : Double) : ScalarImage (.float x) (.float x)
  | str (t : Text) : ScalarImage (.str t) (.str t)
  | stage (s : Stage) : ScalarImage (.stage s) (.int s.ordinal)
  | combinator (c : Combinator) : ScalarImage (.combinator c) (.str c.text)

inductive KeyImage : Value → Text → Prop
  | null : KeyImage .null "null"
  | true : KeyImage (.bool true) "true"
  | false : KeyImage (.bool false) "false"
  | int {n : Int} (h : Number.FitsDigits n) : KeyImage (.int n) (Number.integerText n)
  | float (x : Double) : KeyImage (.float x) (x.text Double.serialised)
  | str (t : Text) : KeyImage (.str t) t
  | stage (s : Stage) : KeyImage (.stage s) (Number.integerText s.ordinal)
  | combinator (c : Combinator) : KeyImage (.combinator c) c.text

namespace Store

theorem encodeScalar_eq {v : Value} {d : Json} (h : ScalarImage v d) : encodeScalar v = .ok d := by
  cases h with
  | int h => rw [encodeScalar, encodeInt, if_pos h]
  | null | bool | float | str | stage | combinator => rfl

theorem keyText_eq {key : Value} {name : Text} (h : KeyImage key name) (st : Store) :
    st.keyText key = .ok name := by
  cases h with
  | int h => rw [keyText, if_pos h]
  | stage s => rw [keyText, Number.integerText_ofNat]
  | null | true | false | float | str | combinator => rfl

/-! ### what values hold -/

/-- What can be seen of a node from outside. -/
inductive Content
  | items (vs : List Value)
  | entries (es : List (Value × Value))
  | closed

/-- The values in a node. -/
def Content.parts : Content → List Value
  | .items vs => vs
  | .entries es => es.map Prod.snd
  | .closed => []

variable (st : Store)

def content (r : Ref) : Content :=
  match st.node r with
  | .list vs | .tuple vs => .items vs
  | .table es => .entries es
  | .record _ attributes => .entries (st.entries attributes)
  | .set _ | .point _ _ | .sealed => .closed

theorem content_eq_items_iff {r : Ref} {vs : List Value} :
    st.content r = .items vs ↔ st.node r = .list vs ∨ st.node r = .tuple vs := by
  unfold content
  cases st.node r <;> simp

theorem content_eq_entries_iff {r : Ref} {es : List (Value × Value)} :
    st.content r = .entries es ↔ st.node r = .table es ∨
      ∃ kind attributes, st.node r = .record kind attributes ∧ st.entries attributes = es := by
  unfold content
  cases st.node r <;> simp [and_assoc]

def parts : Value → List Value
  | .ref r => (st.content r).parts
  | _ => []

/-- A value holds another one. -/
def Holds (v w : Value) : Prop := w ∈ st.parts v

theorem holds_ref_iff {r : Ref} {w : Value} : st.Holds (.ref r) w ↔ w ∈ (st.content r).parts :=
  Iff.rfl

theorem lt_size_of_content_ne {r : Ref} (h : st.content r ≠ .closed) : r < st.size := by
  refine lt_size_of_node_ne fun hn => h ?_
  rw [content, hn]

mutual

/-- The document of a value, with a member for each entry of a table and for each attribute. -/
inductive Depicts : Value → Json → Prop
  | scalar {v : Value} {d : Json} (h : ScalarImage v d) : Depicts v d
  | items {r : Ref} {vs : List Value} {ds : List Json} (hc : st.content r = .items vs)
    (h : DepictsItems vs ds) : Depicts (.ref r) (.arr ds)
  | entries {r : Ref} {es : List (Value × Value)} {ms : List (Text × Json)}
    (hc : st.content r = .entries es) (h : DepictsEntries es ms) : Depicts (.ref r) (.obj ms)

inductive DepictsItems : List Value → List Json → Prop
  | nil : DepictsItems [] []
  | cons {v : Value} {d : Json} {vs : List Value} {ds : List Json} (h : Depicts v d)
    (hs : DepictsItems vs ds) : DepictsItems (v :: vs) (d :: ds)

inductive DepictsEntries : List (Value × Value) → List (Text × Json) → Prop
  | nil : DepictsEntries [] []
  | cons {key v : Value} {name : Text} {d : Json} {es : List (Value × Value)}
    {ms : List (Text × Json)} (hk : KeyImage key name) (h : Depicts v d)
    (hs : DepictsEntries es ms) : DepictsEntries ((key, v) :: es) ((name, d) :: ms)

end

variable {st}

/-! ### no value holds itself -/

theorem acc_of_parts_eq_nil {v : Value} (h : st.parts v = []) :
    Acc (fun w v => st.Holds v w) v := by
  refine Acc.intro v fun w hw => ?_
  unfold Holds at hw
  rw [h] at hw
  exact absurd hw List.not_mem_nil

mutual

/-- From a value with a document every way to the values it holds comes to an end. -/
theorem Depicts.acc {v : Value} {d : Json} (h : st.Depicts v d) :
    Acc (fun w v => st.Holds v w) v := by
  cases h with
  | scalar h => exact acc_of_parts_eq_nil (by cases h <;> rfl)
  | @items r vs ds hc h =>
    refine Acc.intro _ fun w hw => h.acc w ?_
    rw [holds_ref_iff, hc] at hw
    exact hw
  | @entries r es ms hc h =>
    refine Acc.intro _ fun w hw => h.acc w ?_
    rw [holds_ref_iff, hc] at hw
    exact hw

theorem DepictsItems.acc {vs : List Value} {ds : List Json} (h : st.DepictsItems vs ds) :
    ∀ v ∈ vs, Acc (fun w v => st.Holds v w) v := by
  cases h with
  | nil => exact fun v hv => absurd hv List.not_mem_nil
  | cons h hs => exact List.forall_mem_cons.mpr ⟨h.acc, hs.acc⟩

theorem DepictsEntries.acc {es : List (Value × Value)} {ms : List (Text × Json)}
    (h : st.DepictsEntries es ms) : ∀ v ∈ es.map Prod.snd, Acc (fun w v => st.Holds v w) v := by
  cases h with
  | nil => exact fun v hv => absurd hv List.not_mem_nil
  | cons _ h hs => exact List.forall_mem_cons.mpr ⟨h.acc, hs.acc⟩

end

open Relation in
theorem not_transGen_self {α : Type} {R : α → α → Prop} {a : α} (h : Acc (fun b a => R a b) a) :
    ¬ TransGen R a a := by
  induction h with
  | intro a _ ih =>
    intro hcycle
    obtain ⟨b, hab, hba⟩ := TransGen.head'_iff.mp hcycle
    exact ih b hab (TransGen.tail' hba hab)

/-! ### the way of the encoder -/

theorem encode_items {r : Ref} {vs : List Value} {path : List Ref} (hc : st.content r = .items vs)
    (hr : r ∉ path) (fuel : Nat) :
    encode (fuel + 1) st path (.ref r) = (vs.mapM (encode fuel st (r :: path))).map .arr := by
  have hn := (st.content_eq_items_iff).mp hc
  unfold encode
  rcases hn with hn | hn <;>
  · simp only [hn, if_neg hr]
    cases vs <;> rfl

theorem encode_entries {r : Ref} {es : List (Value × Value)} {path : List Ref}
    (hc : st.content r = .entries es) (hr : r ∉ path) (fuel : Nat) :
    encode (fuel + 1) st path (.ref r)
      = (st.encodeEntries (encode fuel st (r :: path)) es).map .obj := by
  have hn := (st.content_eq_entries_iff).mp hc
  unfold encode
  rcases hn with hn | ⟨kind, attributes, hn, rfl⟩
  · simp only [hn, if_neg hr]
    cases es <;> rfl
  · simp only [hn, if_neg hr]

theorem encode_scalar {v : Value} {d : Json} (h : ScalarImage v d) (fuel : Nat)
    (path : List Ref) : encode (fuel + 1) st path v = .ok d := by
  have hs := encodeScalar_eq h
  cases h <;> exact hs

/-- The places below a bound on the way from a root to a value, one related to the next. -/
structure Path (R : Value → Value → Prop) (bound : Nat) (path : List Ref) (v : Value) : Prop where
  nodup : path.Nodup
  inside : ∀ p ∈ path, p < bound
  leads : ∀ p ∈ path, Relation.TransGen R (.ref p) v

section
variable {R : Value → Value → Prop} {bound : Nat}

theorem path_nil (v : Value) : Path R bound [] v where
  nodup := List.Pairwise.nil
  inside _ hp := absurd hp List.not_mem_nil
  leads _ hp := absurd hp List.not_mem_nil

theorem length_le_of_nodup {places : List Ref} (hnodup : places.Nodup)
    (h : ∀ p ∈ places, p < bound) : places.length ≤ bound := by
  have hsub : places ⊆ List.range bound := fun p hp => List.mem_range.mpr (h p hp)
  have hle := (List.subperm_of_subset hnodup hsub).length_le
  rwa [List.length_range] at hle

theorem Path.length_le {path : List Ref} {v : Value} (h : Path R bound path v) :
    path.length ≤ bound :=
  length_le_of_nodup h.nodup h.inside

theorem Path.step {path : List Ref} {r : Ref} {w : Value} (h : Path R bound path (.ref r))
    (hr : r ∉ path) (hlt : r < bound) (hw : R (.ref r) w) : Path R bound (r :: path) w where
  nodup := List.nodup_cons.mpr ⟨hr, h.nodup⟩
  inside := List.forall_mem_cons.mpr ⟨hlt, h.inside⟩
  leads := List.forall_mem_cons.mpr ⟨.single hw, fun p hp => (h.leads p hp).tail hw⟩

end

/-- A node is not on the way to itself, and the way goes on to all its parts. -/
theorem Path.parts {path : List Ref} {r : Ref} (h : Path st.Holds st.size path (.ref r))
    (hacc : Acc (fun w v => st.Holds v w) (.ref r)) (hc : st.content r ≠ .closed) :
    r ∉ path ∧ ∀ w ∈ (st.content r).parts, Path st.Holds st.size (r :: path) w := by
  have hr : r ∉ path := fun hmem => not_transGen_self hacc (h.leads r hmem)
  exact ⟨hr, fun w hw => h.step hr (st.lt_size_of_content_ne hc) hw⟩

mutual

/-- The encoder answers the document, on every way to the value. -/
theorem Depicts.encode {v : Value} {d : Json} (h : st.Depicts v d) {path : List Ref}
    (hp : Path st.Holds st.size path v) {fuel : Nat} (hf : st.size < fuel + path.length) :
    encode fuel st path v = .ok d := by
  have hlength := hp.length_le
  obtain ⟨fuel, rfl⟩ := Nat.exists_eq_succ_of_ne_zero (show fuel ≠ 0 by omega)
  have hacc := h.acc
  cases h with
  | scalar h => exact encode_scalar h fuel path
  | @items r vs ds hc h =>
    obtain ⟨hr, hparts⟩ := hp.parts hacc (by rw [hc]; exact Content.noConfusion)
    rw [hc] at hparts
    rw [encode_items hc hr, h.encode hparts (by rw [List.length_cons]; omega)]
    rfl
  | @entries r es ms hc h =>
    obtain ⟨hr, hparts⟩ := hp.parts hacc (by rw [hc]; exact Content.noConfusion)
    rw [hc] at hparts
    rw [encode_entries hc hr, h.encode hparts (by rw [List.length_cons]; omega)]
    rfl

theorem DepictsItems.encode {vs : List Value} {ds : List Json} (h : st.DepictsItems vs ds)
    {path : List Ref} (hp : ∀ v ∈ vs, Path st.Holds st.size path v) {fuel : Nat}
    (hf : st.size < fuel + path.length) : vs.mapM (Store.encode fuel st path) = .ok ds := by
  cases h with
  | nil => rfl
  | cons h hs =>
    obtain ⟨hfirst, hrest⟩ := List.forall_mem_cons.mp hp
    rw [List.mapM_cons, h.encode hfirst hf, hs.encode hrest hf]
    rfl

theorem DepictsEntries.encode {es : List (Value × Value)} {ms : List (Text × Json)}
    (h : st.DepictsEntries es ms) {path : List Ref}
    (hp : ∀ v ∈ es.map Prod.snd, Path st.Holds st.size path v) {fuel : Nat}
    (hf : st.size < fuel + path.length) :
    st.encodeEntries (Store.encode fuel st path) es = .ok ms := by
  cases h with
  | nil => rfl
  | cons hk h hs =>
    obtain ⟨hfirst, hrest⟩ := List.forall_mem_cons.mp hp
    have hes := hs.encode hrest hf
    unfold encodeEntries at hes ⊢
    rw [List.mapM_cons, hes]
    simp only [bind, Except.bind]
    rw [keyText_eq hk, h.encode hfirst hf]
    rfl

end

/-- **The encoder answers the document of a value.** -/
theorem Depicts.toDocument {v : Value} {d : Json} (h : st.Depicts v d) :
    st.toDocument v = .ok d :=
  h.encode (path_nil v) (by unfold encodeFuel; omega)

theorem Depicts.toJson {v : Value} {d : Json} (h : st.Depicts v d) :
    st.toJson v = .ok d.render := by
  rw [Store.toJson, h.toDocument]
  rfl

/-- A value has one document at most. -/
theorem Depicts.unique {v : Value} {d d' : Json} (h : st.Depicts v d) (h' : st.Depicts v d') :
    d = d' :=
  Except.ok.inj (h.toDocument.symm.trans h'.toDocument)

end Store

end SelectorForge
