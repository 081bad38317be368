import SelectorForge.Proofs.Store.Cycles
import Mathlib.Data.List.Zip

/-!
# Documents composed of parts

What the document of a value is if nothing but its parts is looked at: no way is remembered, and an
object with two places shows them without being laid open. Where such an object lays open what is
below it, not every value is shown as it stands, so the values are told apart by where they stand:

* `Store.view`         what a node shows, both places of a point included;
* `Store.composed`     the document of a value, made of the documents of its parts;
* `Zone`               whether a value is going to be laid open or to be copied;
* `Store.Composable`   the values that can stand in a zone, up to a depth;
* `Store.Like`         a value in another store that shows the same;
* `Like.composable`, `Like.composed_eq`   such a value can stand where the first one can, and it has
  the same document.
-/

namespace SelectorForge

/-- What an object or a table is besides its entries. -/
inductive Form
  | table
  | record (kind : Kind)
  | point
deriving DecidableEq

inductive View
  | items (vs : List Value)
  | entries (form : Form) (es : List (Value × Value))
  | closed

def View.parts : View → List Value
  | .items vs => vs
  | .entries _ es => es.map Prod.snd
  | .closed => []

namespace Store

variable (st : Store)

/-- What a node shows. A point shows something only if both of its places are taken. -/
def view (r : Ref) : View :=
  match st.node r with
  | .list vs | .tuple vs => .items vs
  | .table es => .entries .table es
  | .record kind attributes => .entries (.record kind) (st.entries attributes)
  | .point (some x) (some y) => .entries .point [(.str Name.x, x), (.str Name.y, y)]
  | _ => .closed

/-- The document of a value, made of the documents of its parts down to a depth. -/
def composed : Nat → Value → Except Fault Json
  | depth + 1, .ref r =>
    match st.view r with
    | .items vs => (vs.mapM (composed depth)).map .arr
    | .entries _ es => (st.encodeEntries (composed depth) es).map .obj
    | .closed => .error (.notSerialisable (st.node r).typeName)
  | _, v => encodeScalar v

/-- The table that an object shares is a table. -/
def Tabled (r : Ref) : Prop :=
  ∀ kind table, st.node r = .record kind (.shared table) → ∃ es, st.node table = .table es

end Store

/-! ### zones -/

/-- What is going to be done with the values in some place before they are shown: those below a
point are laid open, and what cannot be laid open is copied. -/
structure Zone where
  opened : Bool
  copied : Bool
deriving DecidableEq

namespace Zone

def free : Zone := ⟨false, false⟩

/-- The zone of the parts. Laying open ends at objects that declare nothing. -/
def below (z : Zone) : Form → Zone
  | .table => z
  | .record kind => if kind.declared?.isSome then z else ⟨false, z.opened || z.copied⟩
  | .point => { z with opened := true }

theorem below_declared {z : Zone} {kind : Kind} {names : List Text}
    (h : kind.declared? = some names) : z.below (.record kind) = z := by
  simp only [below, h, Option.isSome_some, if_true]

theorem below_undeclared {z : Zone} {kind : Kind} (h : kind.declared? = none)
    (hz : z.opened = true ∨ z.copied = true) : z.below (.record kind) = ⟨false, true⟩ := by
  simp only [below, h, Option.isSome_none, Bool.false_eq_true, if_false, Bool.or_eq_true_iff.mpr hz]

theorem copied_below {z : Zone} (h : z.copied = true) (f : Form) : (z.below f).copied = true := by
  cases f with
  | table | point => exact h
  | record kind =>
    cases hkind : kind.declared? with
    | none => rw [below_undeclared hkind (Or.inr h)]
    | some names => rwa [below_declared hkind]

/-- What is done in the second zone is done in the first one too. -/
structure Covers (z z' : Zone) : Prop where
  opened : z'.opened = true → z.opened = true
  copied : z'.copied = true → z.copied = true

theorem covers_free (z : Zone) : z.Covers free :=
  ⟨fun h => absurd h Bool.false_ne_true, fun h => absurd h Bool.false_ne_true⟩

theorem Covers.below {z z' : Zone} (h : z.Covers z') (f : Form) :
    (z.below f).Covers (z'.below f) := by
  cases f with
  | table => exact h
  | point => exact ⟨fun _ => rfl, h.copied⟩
  | record kind =>
    cases hkind : kind.declared? with
    | some names => rwa [below_declared hkind, below_declared hkind]
    | none =>
      simp only [Zone.below, hkind]
      refine ⟨id, fun hcopied => ?_⟩
      exact Bool.or_eq_true_iff.mpr ((Bool.or_eq_true_iff.mp hcopied).imp h.opened h.copied)

end Zone

/-- The names under which an attribute decides how an object is copied. -/
def Name.hooks : List Text := [Name.copyHook, Name.partsHook, Name.stateHook]

/-- An object that a copy of its attributes is a copy of: no error, and without hooks. -/
structure Kind.Copyable (kind : Kind) (es : List (Value × Value)) : Prop where
  not_error : ∀ k core, kind ≠ .error k core
  no_hook : ∀ e ∈ es, ∀ name ∈ Name.hooks, Store.asText? e.1 ≠ some name

/-- An object with exactly the attributes that it declares, or without declarations. -/
def Kind.Exact (kind : Kind) (es : List (Value × Value)) : Prop :=
  ∀ names, kind.declared? = some names → es.map Prod.fst = names.map .str

/-- What can stand in a zone: an object that is laid open has the attributes that it declares, and
an object that is copied can be copied. -/
def Zone.Suits (z : Zone) (es : List (Value × Value)) : Form → Prop
  | .record kind =>
    (z.opened = true → kind.Exact es) ∧
    (z.copied = true ∨ z.opened = true ∧ kind.declared? = none → kind.Copyable es)
  | _ => True

namespace Store

/-- What can stand in a zone together with all its parts, up to a depth. -/
inductive Composable (st : Store) : Zone → Nat → Value → Prop
  | scalar {z : Zone} {n : Nat} {v : Value} (h : ∀ r, v ≠ .ref r) : Composable st z n v
  | items {z : Zone} {n : Nat} {r : Ref} {vs : List Value} (hv : st.view r = .items vs)
    (h : ∀ w ∈ vs, Composable st z n w) : Composable st z (n + 1) (.ref r)
  | entries {z : Zone} {n : Nat} {r : Ref} {f : Form} {es : List (Value × Value)}
    (hv : st.view r = .entries f es) (hs : st.Tabled r) (hk : ∀ e ∈ es, ∀ q, e.1 ≠ .ref q)
    (hz : z.Suits es f) (h : ∀ e ∈ es, Composable st (z.below f) n e.2) :
    Composable st z (n + 1) (.ref r)

/-- A value that shows in another store what the first one shows. -/
inductive Like (st st' : Store) : Value → Value → Prop
  | scalar {v : Value} (h : ∀ r, v ≠ .ref r) : Like st st' v v
  | items {r r' : Ref} {vs vs' : List Value} (hv : st.view r = .items vs)
    (hv' : st'.view r' = .items vs') (hl : vs.length = vs'.length)
    (h : ∀ w w', (w, w') ∈ vs.zip vs' → Like st st' w w') : Like st st' (.ref r) (.ref r')
  | entries {r r' : Ref} {f : Form} {es es' : List (Value × Value)}
    (hv : st.view r = .entries f es) (hv' : st'.view r' = .entries f es') (hs : st.Tabled r)
    (hs' : st'.Tabled r') (hl : es.length = es'.length)
    (hk : ∀ e e', (e, e') ∈ es.zip es' → e'.1 = e.1)
    (h : ∀ e e', (e, e') ∈ es.zip es' → Like st st' e.2 e'.2) : Like st st' (.ref r) (.ref r')

variable {st st' : Store} {z : Zone} {n : Nat} {v v' : Value}

/-! ### views -/

theorem view_list {r : Ref} {vs : List Value} (h : st.node r = .list vs) :
    st.view r = .items vs := by
  rw [view, h]

theorem view_tuple {r : Ref} {vs : List Value} (h : st.node r = .tuple vs) :
    st.view r = .items vs := by
  rw [view, h]

theorem view_table {r : Ref} {es : List (Value × Value)} (h : st.node r = .table es) :
    st.view r = .entries .table es := by
  rw [view, h]

theorem view_record {r : Ref} {kind : Kind} {attributes : Attributes}
    (h : st.node r = .record kind attributes) :
    st.view r = .entries (.record kind) (st.entries attributes) := by
  rw [view, h]

theorem view_point {r : Ref} {x y : Value} (h : st.node r = .point (some x) (some y)) :
    st.view r = .entries .point [(.str Name.x, x), (.str Name.y, y)] := by
  rw [view, h]

theorem node_of_view_items {r : Ref} {vs : List Value} (h : st.view r = .items vs) :
    st.node r = .list vs ∨ st.node r = .tuple vs := by
  unfold view at h
  split at h <;> cases h
  · next hn => exact Or.inl hn
  · next hn => exact Or.inr hn

theorem node_of_view_entries {r : Ref} {f : Form} {es : List (Value × Value)}
    (h : st.view r = .entries f es) :
    f = .table ∧ st.node r = .table es ∨
    (∃ kind attributes, f = .record kind ∧ st.node r = .record kind attributes ∧
      st.entries attributes = es) ∨
    ∃ x y, f = .point ∧ st.node r = .point (some x) (some y) ∧
      [(.str Name.x, x), (.str Name.y, y)] = es := by
  unfold view at h
  split at h <;> cases h
  · next hn => exact Or.inl ⟨rfl, hn⟩
  · next kind attributes hn => exact Or.inr (Or.inl ⟨kind, attributes, rfl, hn, rfl⟩)
  · next x y hn => exact Or.inr (Or.inr ⟨x, y, rfl, hn, rfl⟩)

theorem node_ne_of_view {r : Ref} (h : st.view r ≠ .closed) : st.node r ≠ .sealed :=
  fun hn => h (by rw [view, hn])

theorem lt_size_of_view {r : Ref} (h : st.view r ≠ .closed) : r < st.size :=
  lt_size_of_node_ne (node_ne_of_view h)

theorem composed_ref (r : Ref) : st.composed (n + 1) (.ref r) =
    match st.view r with
    | .items vs => (vs.mapM (st.composed n)).map .arr
    | .entries _ es => (st.encodeEntries (st.composed n) es).map .obj
    | .closed => .error (.notSerialisable (st.node r).typeName) := rfl

theorem composed_items {r : Ref} {vs : List Value} (h : st.view r = .items vs) :
    st.composed (n + 1) (.ref r) = (vs.mapM (st.composed n)).map .arr := by
  rw [composed_ref, h]

theorem composed_entries {r : Ref} {f : Form} {es : List (Value × Value)}
    (h : st.view r = .entries f es) :
    st.composed (n + 1) (.ref r) = (st.encodeEntries (st.composed n) es).map .obj := by
  rw [composed_ref, h]

theorem composed_scalar (h : ∀ r, v ≠ .ref r) : st.composed n v = encodeScalar v := by
  cases v with
  | ref r => exact absurd rfl (h r)
  | null | bool | int | float | str | octets | stage | combinator => cases n <;> rfl

/-- The names of members do not depend on the store. -/
theorem keyText_of_ne_ref {key : Value} (h : ∀ q, key ≠ .ref q) (st st' : Store) :
    st'.keyText key = st.keyText key := by
  cases key with
  | ref r => exact absurd rfl (h r)
  | bool b => cases b <;> rfl
  | null | int | float | str | octets | stage | combinator => rfl

/-! ### parts in turn -/

theorem mapM_eq_of_forall₂ {α β γ : Type} {f : α → Except Fault γ} {g : β → Except Fault γ}
    {as : List α} {bs : List β} (h : List.Forall₂ (fun a b => g b = f a) as bs) :
    bs.mapM g = as.mapM f := by
  induction h with
  | nil => rfl
  | cons hab _ ih => rw [List.mapM_cons, List.mapM_cons, hab, ih]

theorem encodeEntries_eq_of_forall₂ (st st' : Store) {f f' : Value → Except Fault Json}
    {es es' : List (Value × Value)}
    (h : List.Forall₂ (fun e e' => e'.1 = e.1 ∧ f' e'.2 = f e.2) es es')
    (hk : ∀ e ∈ es, ∀ q, e.1 ≠ .ref q) :
    st'.encodeEntries f' es' = st.encodeEntries f es := by
  unfold encodeEntries
  induction h with
  | nil => rfl
  | @cons e e' _ _ he _ ih =>
    obtain ⟨key, w⟩ := e
    obtain ⟨key', w'⟩ := e'
    obtain ⟨hfirst, hrest⟩ := List.forall_mem_cons.mp hk
    obtain ⟨rfl, hw⟩ := he
    rw [List.mapM_cons, List.mapM_cons, ih hrest]
    simp only [hw, keyText_of_ne_ref hfirst st st']

theorem forall_mem_of_forall₂ {α β : Type} {R : α → β → Prop} {P : α → Prop} {Q : β → Prop}
    {as : List α} {bs : List β} (h : List.Forall₂ R as bs) (hP : ∀ a ∈ as, P a)
    (hR : ∀ a b, R a b → P a → Q b) : ∀ b ∈ bs, Q b := by
  induction h with
  | nil => exact fun b hb => absurd hb List.not_mem_nil
  | cons hab _ ih =>
    obtain ⟨hfirst, hrest⟩ := List.forall_mem_cons.mp hP
    exact List.forall_mem_cons.mpr ⟨hR _ _ hab hfirst, ih hrest⟩

/-- The values of entries with the same keys, one by one. -/
theorem forall₂_entries {R : Value → Value → Prop} {es es' : List (Value × Value)}
    (hl : es.length = es'.length) (hk : ∀ e e', (e, e') ∈ es.zip es' → e'.1 = e.1)
    (h : ∀ e e', (e, e') ∈ es.zip es' → R e.2 e'.2) :
    List.Forall₂ (fun e e' => e'.1 = e.1 ∧ R e.2 e'.2) es es' :=
  List.forall₂_iff_zip.mpr ⟨hl, fun hmem => ⟨hk _ _ hmem, h _ _ hmem⟩⟩

theorem map_fst_eq_of_forall₂ {es es' : List (Value × Value)}
    (h : List.Forall₂ (fun e e' => e'.1 = e.1) es es') :
    es'.map Prod.fst = es.map Prod.fst := by
  induction h with
  | nil => rfl
  | cons he _ ih => rw [List.map_cons, List.map_cons, he, ih]

/-! ### depths and zones -/

/-- The document does not depend on the depth, once it is deep enough. -/
theorem Composable.mono {m : Nat} (h : st.Composable z n v) (hm : n ≤ m) :
    st.Composable z m v ∧ st.composed m v = st.composed n v := by
  induction h generalizing m with
  | scalar h => exact ⟨.scalar h, by rw [composed_scalar h, composed_scalar h]⟩
  | @items z n r vs hv _ ih =>
    obtain ⟨m, rfl⟩ := Nat.exists_eq_add_of_le' (Nat.le_trans (Nat.le_add_left 1 n) hm)
    have hm : n ≤ m := Nat.le_of_succ_le_succ hm
    refine ⟨.items hv fun w hw => (ih w hw hm).1, ?_⟩
    rw [composed_items hv, composed_items hv, mapM_eq_of_forall₂ (f := st.composed n)]
    exact List.forall₂_same.mpr fun w hw => (ih w hw hm).2
  | @entries z n r f es hv hs hk hz _ ih =>
    obtain ⟨m, rfl⟩ := Nat.exists_eq_add_of_le' (Nat.le_trans (Nat.le_add_left 1 n) hm)
    have hm : n ≤ m := Nat.le_of_succ_le_succ hm
    refine ⟨.entries hv hs hk hz fun e he => (ih e he hm).1, ?_⟩
    rw [composed_entries hv, composed_entries hv,
      encodeEntries_eq_of_forall₂ st st (f := st.composed n) _ hk]
    exact List.forall₂_same.mpr fun e he => ⟨rfl, (ih e he hm).2⟩

theorem suits_of_covers {z' : Zone} {es : List (Value × Value)} {f : Form} (h : z.Suits es f)
    (hz : z.Covers z') : z'.Suits es f := by
  cases f with
  | table | point => trivial
  | record kind =>
    refine ⟨fun hopened => h.1 (hz.opened hopened), fun hcopied => h.2 ?_⟩
    exact hcopied.imp hz.copied fun ⟨hopened, hkind⟩ => ⟨hz.opened hopened, hkind⟩

theorem Composable.weaken {z' : Zone} (h : st.Composable z n v) (hz : z.Covers z') :
    st.Composable z' n v := by
  induction h generalizing z' with
  | scalar h => exact .scalar h
  | items hv _ ih => exact .items hv fun w hw => ih w hw hz
  | @entries z n r f es hv hs hk hsuits _ ih =>
    exact .entries hv hs hk (suits_of_covers hsuits hz) fun e he => ih e he (hz.below f)

theorem Composable.free (h : st.Composable z n v) : st.Composable .free n v :=
  h.weaken (Zone.covers_free z)

/-- The depth of a value is the same in all zones in which it can stand. -/
theorem Composable.at_depth {z' : Zone} {m : Nat} (h : st.Composable z n v)
    (h' : st.Composable z' m v) : st.Composable z m v := by
  induction h generalizing z' m with
  | scalar h => exact .scalar h
  | items hv _ ih =>
    cases h' with
    | scalar h => exact absurd rfl (h _)
    | items hv' h' =>
      cases hv.symm.trans hv'
      exact .items hv fun w hw => ih w hw (h' w hw)
    | entries hv' => cases hv.symm.trans hv'
  | entries hv hs hk hsuits _ ih =>
    cases h' with
    | scalar h => exact absurd rfl (h _)
    | items hv' => cases hv.symm.trans hv'
    | entries hv' _ _ _ h' =>
      cases hv.symm.trans hv'
      exact .entries hv hs hk hsuits fun e he => ih e he (h' e he)

/-! ### values that show the same -/

theorem like_items {r r' : Ref} {vs vs' : List Value} (hv : st.view r = .items vs)
    (hv' : st'.view r' = .items vs') (h : List.Forall₂ (st.Like st') vs vs') :
    st.Like st' (.ref r) (.ref r') :=
  .items hv hv' h.length_eq fun _ _ hmem => (List.forall₂_iff_zip.mp h).2 hmem

theorem like_entries {r r' : Ref} {f : Form} {es es' : List (Value × Value)}
    (hv : st.view r = .entries f es) (hv' : st'.view r' = .entries f es') (hs : st.Tabled r)
    (hs' : st'.Tabled r')
    (h : List.Forall₂ (fun e e' => e'.1 = e.1 ∧ st.Like st' e.2 e'.2) es es') :
    st.Like st' (.ref r) (.ref r') :=
  .entries hv hv' hs hs' h.length_eq (fun _ _ hmem => ((List.forall₂_iff_zip.mp h).2 hmem).1)
    fun _ _ hmem => ((List.forall₂_iff_zip.mp h).2 hmem).2

theorem suits_of_map_fst_eq {es es' : List (Value × Value)} {f : Form} (h : z.Suits es f)
    (hk : es'.map Prod.fst = es.map Prod.fst) : z.Suits es' f := by
  cases f with
  | table | point => trivial
  | record kind =>
    refine ⟨fun hopened names hnames => hk.trans (h.1 hopened names hnames), fun hcopied => ?_⟩
    have hcopyable := h.2 hcopied
    refine ⟨hcopyable.not_error, fun e he => ?_⟩
    have hmem : e.1 ∈ es.map Prod.fst := hk ▸ List.mem_map_of_mem he
    obtain ⟨e', he', hkey⟩ := List.mem_map.mp hmem
    exact hkey ▸ hcopyable.no_hook e' he'

theorem Like.composable (h : st.Like st' v v') (hv : st.Composable z n v) :
    st'.Composable z n v' := by
  induction h generalizing z n with
  | scalar h => exact .scalar h
  | items hview hview' hl _ ih =>
    cases hv with
    | scalar h => exact absurd rfl (h _)
    | items hv h =>
      cases hview.symm.trans hv
      exact .items hview' (forall_mem_of_forall₂ (List.forall₂_iff_zip.mpr ⟨hl, ih _ _⟩) h
        fun _ _ hw hc => hw hc)
    | entries hv => cases hview.symm.trans hv
  | entries hview hview' _ hs' hl hk _ ih =>
    cases hv with
    | scalar h => exact absurd rfl (h _)
    | items hv => cases hview.symm.trans hv
    | entries hv _ hkeys hsuits h =>
      cases hview.symm.trans hv
      have hes := @forall₂_entries
        (fun w w' => ∀ {z n}, st.Composable z n w → st'.Composable z n w') _ _ hl hk
        fun e e' hmem => ih e e' hmem
      have hfst := map_fst_eq_of_forall₂ (hes.imp fun _ _ he => he.1)
      refine .entries hview' hs' ?_ (suits_of_map_fst_eq hsuits hfst) ?_
      · exact forall_mem_of_forall₂ hes hkeys fun _ _ he hkey => he.1 ▸ hkey
      · exact forall_mem_of_forall₂ hes h fun _ _ he hc => he.2 hc

theorem Like.composed_eq (h : st.Like st' v v') (hv : st.Composable z n v) :
    st'.composed n v' = st.composed n v := by
  induction h generalizing z n with
  | scalar h => rw [composed_scalar h, composed_scalar h]
  | items hview hview' hl _ ih =>
    cases hv with
    | scalar h => exact absurd rfl (h _)
    | entries hv => cases hview.symm.trans hv
    | @items _ n _ _ hv h =>
      cases hview.symm.trans hv
      rw [composed_items hview, composed_items hview', mapM_eq_of_forall₂ (f := st.composed n)]
      exact List.forall₂_iff_zip.mpr ⟨hl, fun hmem => ih _ _ hmem (h _ (List.of_mem_zip hmem).1)⟩
  | entries hview hview' _ _ hl hk _ ih =>
    cases hv with
    | scalar h => exact absurd rfl (h _)
    | items hv => cases hview.symm.trans hv
    | @entries _ n _ _ _ hv _ hkeys _ h =>
      cases hview.symm.trans hv
      rw [composed_entries hview, composed_entries hview',
        encodeEntries_eq_of_forall₂ st st' (f := st.composed n) _ hkeys]
      exact List.forall₂_iff_zip.mpr ⟨hl, fun hmem =>
        ⟨hk _ _ hmem, ih _ _ hmem (h _ (List.of_mem_zip hmem).1)⟩⟩

theorem mem_zip_swap {α β : Type} {as : List α} {bs : List β} {a : α} {b : β}
    (h : (b, a) ∈ bs.zip as) : (a, b) ∈ as.zip bs := by
  rw [← List.zip_swap] at h
  obtain ⟨p, hp, hpair⟩ := List.mem_map.mp h
  cases hpair
  exact hp

theorem Like.symm (h : st.Like st' v v') : st'.Like st v' v := by
  induction h with
  | scalar h => exact .scalar h
  | items hv hv' hl _ ih =>
    exact .items hv' hv hl.symm fun w w' hmem => ih _ _ (mem_zip_swap hmem)
  | entries hv hv' hs hs' hl hk _ ih =>
    exact .entries hv' hv hs' hs hl.symm (fun e e' hmem => (hk _ _ (mem_zip_swap hmem)).symm)
      fun e e' hmem => ih _ _ (mem_zip_swap hmem)

theorem tabled_of_node_ne {r : Ref} (h : ∀ kind attributes, st.node r ≠ .record kind attributes) :
    st.Tabled r := fun kind _ hn => absurd hn (h kind _)

theorem tabled_of_view {r : Ref} {f : Form} {es : List (Value × Value)}
    (h : st.view r = .entries f es) (hf : ∀ kind, f ≠ .record kind) : st.Tabled r := by
  refine tabled_of_node_ne fun kind attributes hn => ?_
  cases (view_record hn).symm.trans h
  exact hf kind rfl

theorem Extends.tabled {r : Ref} (h : Extends st st') (hr : r < st.size) (hs : st.Tabled r) :
    st'.Tabled r := by
  intro kind table hn
  rw [h.node_eq r hr] at hn
  obtain ⟨es, hes⟩ := hs kind table hn
  exact ⟨es, h.node_eq_of_ne hes Node.noConfusion⟩

theorem Extends.entries_eq {r : Ref} {kind : Kind} {attributes : Attributes}
    (h : Extends st st') (hs : st.Tabled r) (hn : st.node r = .record kind attributes) :
    st'.entries attributes = st.entries attributes := by
  cases attributes with
  | own fields => rfl
  | shared table =>
    obtain ⟨es, hes⟩ := hs kind table hn
    simp only [entries_shared, tableEntries, hes, h.node_eq_of_ne hes Node.noConfusion]

theorem Extends.fields_eq {r : Ref} {kind : Kind} {attributes : Attributes}
    (h : Extends st st') (hs : st.Tabled r) (hn : st.node r = .record kind attributes) :
    st'.fields attributes = st.fields attributes := by
  rw [fields_eq_filterMap_entries, fields_eq_filterMap_entries, h.entries_eq hs hn]

theorem Extends.view_eq {r : Ref} (h : Extends st st') (hr : r < st.size) (hs : st.Tabled r) :
    st'.view r = st.view r := by
  unfold view
  rw [h.node_eq r hr]
  split <;> try rfl
  next hn => rw [h.entries_eq hs hn]

theorem tabled_of_items {r : Ref} {vs : List Value} (h : st.view r = .items vs) :
    st.Tabled r := by
  refine tabled_of_node_ne fun kind attributes hn => ?_
  cases (view_record hn).symm.trans h

theorem composable_table {r : Ref} {es : List (Value × Value)} (hn : st.node r = .table es)
    (hk : ∀ e ∈ es, ∀ q, e.1 ≠ .ref q) (h : ∀ e ∈ es, st.Composable z n e.2) :
    st.Composable z (n + 1) (.ref r) :=
  .entries (view_table hn) (tabled_of_view (view_table hn) fun _ => Form.noConfusion) hk trivial h

/-- Further nodes do not change what a value shows. -/
theorem Composable.like_self (h : st.Composable z n v) (he : Extends st st') :
    st.Like st' v v := by
  induction h with
  | scalar h => exact .scalar h
  | items hv _ ih =>
    have hr := lt_size_of_view (by rw [hv]; exact View.noConfusion)
    exact like_items hv ((he.view_eq hr (tabled_of_items hv)).trans hv)
      (List.forall₂_same.mpr ih)
  | entries hv hs _ _ _ ih =>
    have hr := lt_size_of_view (by rw [hv]; exact View.noConfusion)
    exact like_entries hv ((he.view_eq hr hs).trans hv) hs (he.tabled hr hs)
      (List.forall₂_same.mpr fun e he => ⟨rfl, ih e he⟩)

end Store

end SelectorForge
