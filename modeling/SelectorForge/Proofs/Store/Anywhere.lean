import SelectorForge.Proofs.Store.Opened

/-!
# One text wherever a value stands

The text of a list, a tuple, a table or an object is put together from the texts of its parts, and
so is the text of a point, although what is below a point is laid open before it is encoded. This
is so wherever objects with declared attributes have exactly these when they are laid open: what
such an object has besides is lost below a point, and what it lacks cannot be found there.

* `Json.listText`, `Json.objectText`   the texts of arrays and objects, from texts;
* `Store.encode_eq_composed`   the encoder answers the document that is composed of parts;
* `Store.Contains`             a value holds another one, in a place of a point if need be;
* `Store.Presentable`          nothing that is reached from a value holds itself, and what is below
  a point is neither changed by laying open nor by copying;
* `Store.toJson_composed`      each text is composed of the texts of the parts.
-/

namespace SelectorForge

/-! ### texts of parts -/

namespace Json

open CodePoint

def listText (ts : List Text) : Text :=
  [openBracket] ++ [comma].intercalate ts ++ [closeBracket]

def memberText (name t : Text) : Text := literal name ++ [colon] ++ t

def objectText (ms : List Text) : Text :=
  [openBrace] ++ [comma].intercalate ms ++ [closeBrace]

theorem intercalate_cons_eq (c : CodePoint) (t : Text) (ts : List Text) :
    [c].intercalate (t :: ts) = t ++ ts.flatMap (c :: ·) := by
  induction ts generalizing t with
  | nil => rw [List.intercalate_singleton, List.flatMap_nil, List.append_nil]
  | cons t' ts ih =>
    rw [List.intercalate_cons_cons, ih, List.flatMap_cons, List.append_assoc]
    rfl

theorem renderItems_eq (ds : List Json) :
    renderItems ds = (ds.map render).flatMap (comma :: ·) ++ [closeBracket] := by
  induction ds with
  | nil => rw [renderItems_nil]; rfl
  | cons d ds ih => rw [renderItems, ih, List.map_cons, List.flatMap_cons, List.append_assoc]

theorem render_arr (ds : List Json) : render (.arr ds) = listText (ds.map render) := by
  cases ds with
  | nil => rw [render]; rfl
  | cons d ds =>
    rw [render, renderItems_eq, List.map_cons, listText, intercalate_cons_eq]
    simp only [List.cons_append, List.nil_append, List.append_assoc]

theorem renderMembers_eq (ms : List (Text × Json)) :
    renderMembers ms = (ms.map fun m => memberText m.1 (render m.2)).flatMap (comma :: ·)
      ++ [closeBrace] := by
  induction ms with
  | nil => rw [renderMembers_nil]; rfl
  | cons m ms ih =>
    obtain ⟨name, d⟩ := m
    rw [renderMembers, ih, List.map_cons, List.flatMap_cons, memberText]
    simp only [List.cons_append, List.nil_append, List.append_assoc]

theorem render_obj (ms : List (Text × Json)) :
    render (.obj ms) = objectText (ms.map fun m => memberText m.1 (render m.2)) := by
  cases ms with
  | nil => rw [render]; rfl
  | cons m ms =>
    obtain ⟨name, d⟩ := m
    rw [render, renderMembers_eq, List.map_cons, objectText, intercalate_cons_eq, memberText]
    simp only [List.cons_append, List.nil_append, List.append_assoc]

end Json

namespace Store

open Relation

variable {st st' : Store} {n fuel : Nat} {z : Zone} {r : Ref} {v w : Value} {path : List Ref}

/-! ### the encoder and the parts -/

theorem content_of_view_items {vs : List Value} (h : st.view r = .items vs) :
    st.content r = .items vs :=
  st.content_eq_items_iff.mpr (node_of_view_items h)

theorem content_of_view_entries {f : Form} {es : List (Value × Value)}
    (h : st.view r = .entries f es) (hf : f ≠ .point) : st.content r = .entries es := by
  refine st.content_eq_entries_iff.mpr ?_
  rcases node_of_view_entries h with ⟨-, hn⟩ | ⟨kind, attributes, -, hn, hes⟩ | ⟨_, _, hpoint, -⟩
  · exact Or.inl hn
  · exact Or.inr ⟨kind, attributes, hn, hes⟩
  · exact absurd hpoint hf

theorem encode_of_ne_ref (h : ∀ r, v ≠ .ref r) (path : List Ref) :
    encode (fuel + 1) st path v = encodeScalar v := by
  cases v with
  | ref r => exact absurd rfl (h r)
  | null | bool | int | float | str | octets | stage | combinator => rfl

theorem encode_point {x y : Option Value} (hn : st.node r = .point x y) (hr : r ∉ path)
    {v : Value} (ho : st.opened (.ref r) = .ok (v, st')) :
    encode (fuel + 1) st path (.ref r) = encode fuel st' (r :: path) v := by
  conv_lhs => unfold encode
  simp only [hn, if_neg hr, ho]
  rfl

theorem Away.later {p : Ref} (h : st.Away n p) (he : Extends st st') : st'.Away n p := by
  obtain ⟨⟨m, hm⟩, hnot⟩ := h
  have hself := hm.like_self he
  exact ⟨⟨m, hself.composable hm⟩, fun hn => hnot (hself.symm.composable hn)⟩

/-- On the way to values of a depth, with deeper ones on it, the encoder answers what is composed of
parts. Laying open leads to another store, so this is said of all stores. -/
def EncodesAt (n : Nat) : Prop :=
  ∀ {st : Store} {z : Zone} {v : Value} {path : List Ref} {fuel : Nat}, n ≤ st.size →
    st.Composable z n v → (∀ p ∈ path, st.Away n p) → 2 * n < fuel →
    encode fuel st path v = st.composed n v

/-- One step, from a node that is no point. -/
theorem EncodesAt.step (ih : EncodesAt n) (hsize : n ≤ st.size)
    (hv : st.Composable z (n + 1) (.ref r)) (hnode : ∀ x y, st.node r ≠ .point x y) (hr : r ∉ path)
    (haway : ∀ p ∈ path, st.Away n p) (hf : 2 * n < fuel) :
    encode (fuel + 1) st path (.ref r) = st.composed (n + 1) (.ref r) := by
  by_cases hdepth : st.Composable .free n (.ref r)
  · rw [(hdepth.mono (Nat.le_succ n)).2]
    exact ih hsize hdepth haway (Nat.lt_succ_of_lt hf)
  have haway' : ∀ p ∈ r :: path, st.Away n p :=
    List.forall_mem_cons.mpr ⟨⟨⟨n + 1, hv.free⟩, hdepth⟩, haway⟩
  cases hv with
  | scalar h => exact absurd rfl (h r)
  | items hview h =>
    rw [encode_items (content_of_view_items hview) hr, composed_items hview,
      mapM_eq_of_forall₂ (f := st.composed n)]
    exact List.forall₂_same.mpr fun w hw => ih hsize (h w hw) haway' hf
  | @entries _ _ _ f es hview _ hk _ h =>
    have hf' : f ≠ .point := by
      rintro rfl
      rcases node_of_view_entries hview with ⟨hf, -⟩ | ⟨_, _, hf, -⟩ | ⟨x, y, -, hn, -⟩
      · cases hf
      · cases hf
      · exact hnode _ _ hn
    rw [encode_entries (content_of_view_entries hview hf') hr, composed_entries hview,
      encodeEntries_eq_of_forall₂ st st (f := st.composed n) _ hk]
    exact List.forall₂_same.mpr fun e he => ⟨rfl, ih hsize (h e he) haway' hf⟩

theorem encodesAt (n : Nat) : EncodesAt n := by
  induction n with
  | zero =>
    intro st z v path fuel _ hv _ hf
    obtain ⟨fuel, rfl⟩ := Nat.exists_eq_succ_of_ne_zero (Nat.ne_of_gt hf)
    cases hv with
    | scalar h => rw [encode_of_ne_ref h, composed_scalar h]
  | succ n ih =>
    intro st z v path fuel hsize hv haway hf
    obtain ⟨fuel, rfl⟩ := Nat.exists_eq_succ_of_ne_zero (Nat.ne_of_gt (Nat.zero_lt_of_lt hf))
    have hsize' : n ≤ st.size := Nat.le_of_succ_le hsize
    have hshallow : ∀ p ∈ path, st.Away n p := fun p hp => (haway p hp).mono (Nat.le_succ n)
    cases v with
    | null | bool | int | float | str | octets | stage | combinator =>
      rw [encode_of_ne_ref (fun _ => Value.noConfusion), composed_scalar fun _ => Value.noConfusion]
    | ref r =>
      have hr : r ∉ path := fun hmem => (haway r hmem).2 hv.free
      by_cases hdepth : st.Composable .free n (.ref r)
      · rw [(hdepth.mono (Nat.le_succ n)).2]
        exact ih hsize' hdepth hshallow (by omega)
      by_cases hnode : ∀ x y, st.node r ≠ .point x y
      · exact ih.step hsize' hv hnode hr hshallow (by omega)
      have hrefl : st.Away n r := ⟨⟨n + 1, hv.free⟩, hdepth⟩
      cases hv with
      | scalar h => exact absurd rfl (h r)
      | items hview _ =>
        rcases node_of_view_items hview with hn | hn <;>
          exact absurd (fun x y hpoint => by cases hn.symm.trans hpoint) hnode
      | entries hview hs hk hsuits h =>
        rcases node_of_view_entries hview with ⟨-, hn⟩ | ⟨_, _, -, hn, -⟩ | ⟨x, y, rfl, hn, rfl⟩
        · exact absurd (fun x y hpoint => by cases hn.symm.trans hpoint) hnode
        · exact absurd (fun x y hpoint => by cases hn.symm.trans hpoint) hnode
        -- on the way the point is followed by the table that it is laid open to
        · obtain ⟨place, es, st', hopened, he, hn', hshows⟩ := exists_opened_point hn h hsize
          obtain ⟨fuel, rfl⟩ := Nat.exists_eq_succ_of_ne_zero (show fuel ≠ 0 by omega)
          have hnew : place ∉ r :: path := by
            refine List.not_mem_cons_of_ne_of_not_mem (fun heq => ?_) fun hmem => ?_
            · rw [heq, he.node_eq_of_ne hn Node.noConfusion] at hn'
              cases hn'
            · exact ((haway place hmem).later he).2 hshows.composable
          rw [encode_point hn hr hopened, ← hshows.composed_eq]
          exact ih.step (Nat.le_trans hsize' he.size_le) hshows.composable
            (fun x y hpoint => by cases hn'.symm.trans hpoint) hnew
            (List.forall_mem_cons.mpr ⟨hrefl.later he, fun p hp => (hshallow p hp).later he⟩)
            (by omega)

/-- **The encoder answers the document that is composed of the documents of the parts.** -/
theorem Composable.toDocument (h : st.Composable z n v) (hsize : n ≤ st.size) :
    st.toDocument v = st.composed n v :=
  encodesAt n hsize h (fun _ hp => absurd hp List.not_mem_nil) (by unfold encodeFuel; omega)

/-! ### values that hold values -/

/-- The values that a value shows as its parts, those in the places of a point included. -/
def shownParts (st : Store) : Value → List Value
  | .ref r => (st.view r).parts
  | _ => []

/-- The parts that are laid open with a value: those of containers, of points and of objects that
declare their attributes. -/
def openedParts (st : Store) : Value → List Value
  | .ref r =>
    match st.node r with
    | .record kind _ => if kind.declared?.isSome then (st.view r).parts else []
    | _ => (st.view r).parts
  | _ => []

def Contains (st : Store) (v w : Value) : Prop := w ∈ st.shownParts v

def OpensTo (st : Store) (v w : Value) : Prop := w ∈ st.openedParts v

/-- A value whose parts stand in the two places of a point. -/
def IsPoint (st : Store) (v : Value) : Prop := ∃ r x y, v = .ref r ∧ st.node r = .point x y

/-- What can be shown at all: a container, a point with both places taken, or an object, with the
table that it shares if it shares one, and keys that are scalars. -/
structure Showable (st : Store) (r : Ref) : Prop where
  shown : st.view r ≠ .closed
  tabled : st.Tabled r
  keys : ∀ f es, st.view r = .entries f es → ∀ e ∈ es, ∀ q, e.1 ≠ .ref q

/-- An object has exactly the attributes that it declares, if it declares any. -/
def Exact (st : Store) (v : Value) : Prop :=
  ∀ r kind attributes, v = .ref r → st.node r = .record kind attributes →
    kind.Exact (st.entries attributes)

/-- An object is no error, and no attribute of it has a say in how it is copied. -/
def Copyable (st : Store) (v : Value) : Prop :=
  ∀ r kind attributes, v = .ref r → st.node r = .record kind attributes →
    kind.Copyable (st.entries attributes)

/-- Everything in a value can be shown, nothing in it holds itself, and below a point there is
nothing that laying open or copying would change. -/
structure Presentable (st : Store) (v : Value) : Prop where
  acyclic : ∀ w, ReflTransGen st.Contains v w → ¬ TransGen st.Contains w w
  showable : ∀ r, ReflTransGen st.Contains v (.ref r) → st.Showable r
  exact_below : ∀ p, ReflTransGen st.Contains v p → st.IsPoint p →
    ∀ w, TransGen st.OpensTo p w → st.Exact w
  copyable_below : ∀ p, ReflTransGen st.Contains v p → st.IsPoint p →
    ∀ w, TransGen st.Contains p w → st.Copyable w

theorem Presentable.of_reach (h : st.Presentable v) (hw : ReflTransGen st.Contains v w) :
    st.Presentable w where
  acyclic x hx := h.acyclic x (hw.trans hx)
  showable r hr := h.showable r (hw.trans hr)
  exact_below p hp := h.exact_below p (hw.trans hp)
  copyable_below p hp := h.copyable_below p (hw.trans hp)

/-- What is going to be done with the value in a zone changes nothing in it. -/
structure Fits (st : Store) (z : Zone) (v : Value) : Prop where
  opened : z.opened = true → ∀ w, ReflTransGen st.OpensTo v w → st.Exact w
  copied : z.opened = true ∨ z.copied = true → ∀ w, ReflTransGen st.Contains v w → st.Copyable w

theorem Fits.suits (h : st.Fits z (.ref r)) {f : Form} {es : List (Value × Value)}
    (hv : st.view r = .entries f es) : z.Suits es f := by
  rcases node_of_view_entries hv with ⟨rfl, -⟩ | ⟨kind, attributes, rfl, hn, rfl⟩ |
    ⟨_, _, rfl, -, -⟩
  · trivial
  · refine ⟨fun hz => h.opened hz _ .refl r kind attributes rfl hn, fun hz => ?_⟩
    exact h.copied (hz.symm.imp_left And.left) _ .refl r kind attributes rfl hn
  · trivial

theorem Fits.part (h : st.Fits z v) (hw : st.OpensTo v w) (hw' : st.Contains v w) :
    st.Fits z w where
  opened hz x hx := h.opened hz x (.head hw hx)
  copied hz x hx := h.copied hz x (.head hw' hx)

theorem contains_item {vs : List Value} (hv : st.view r = .items vs) (hw : w ∈ vs) :
    st.Contains (.ref r) w := by
  show w ∈ (st.view r).parts
  rw [hv]
  exact hw

theorem contains_entry {f : Form} {es : List (Value × Value)} (hv : st.view r = .entries f es)
    {e : Value × Value} (he : e ∈ es) : st.Contains (.ref r) e.2 := by
  show e.2 ∈ (st.view r).parts
  rw [hv]
  exact List.mem_map_of_mem he

/-- Laying open goes on to what a value contains, unless this is an object without declarations. -/
theorem Contains.opensTo (h : st.Contains (.ref r) w)
    (hr : ∀ kind attributes, st.node r = .record kind attributes → kind.declared? ≠ none) :
    st.OpensTo (.ref r) w := by
  show w ∈ st.openedParts (.ref r)
  unfold openedParts
  dsimp only
  split
  · next kind attributes hn =>
    rw [if_pos (Option.isSome_iff_ne_none.mpr (hr kind attributes hn))]
    exact h
  · exact h

theorem Fits.item (h : st.Fits z (.ref r)) {vs : List Value} (hv : st.view r = .items vs)
    (hw : w ∈ vs) : st.Fits z w := by
  refine h.part ((contains_item hv hw).opensTo fun kind attributes hn => ?_) (contains_item hv hw)
  cases (view_record hn).symm.trans hv

theorem Fits.entry (h : st.Fits z (.ref r)) (hp : st.Presentable (.ref r)) {f : Form}
    {es : List (Value × Value)} (hv : st.view r = .entries f es) {e : Value × Value}
    (he : e ∈ es) : st.Fits (z.below f) e.2 := by
  have hcontains := contains_entry hv he
  rcases node_of_view_entries hv with ⟨rfl, hn⟩ | ⟨kind, attributes, rfl, hn, rfl⟩ |
    ⟨x, y, rfl, hn, rfl⟩
  · exact h.part (hcontains.opensTo fun _ _ hn' => by cases hn.symm.trans hn') hcontains
  · cases hkind : kind.declared? with
    | some names =>
      rw [Zone.below_declared hkind]
      refine h.part (hcontains.opensTo fun _ _ hn' => ?_) hcontains
      cases hn.symm.trans hn'
      rw [hkind]
      exact Option.some_ne_none names
    | none =>
      refine ⟨fun hz => ?_, fun hz a ha => h.copied ?_ a (.head hcontains ha)⟩
      · simp only [Zone.below, hkind] at hz
        cases hz
      · simpa only [Zone.below, hkind, Option.isSome_none, Bool.false_eq_true, if_false, false_or,
          Bool.or_eq_true] using hz
  · have hpoint : st.IsPoint (.ref r) := ⟨r, some x, some y, rfl, hn⟩
    have hopens := hcontains.opensTo fun _ _ hn' => by cases hn.symm.trans hn'
    exact ⟨fun _ a ha => hp.exact_below _ .refl hpoint a (.head' hopens ha),
      fun _ a ha => hp.copyable_below _ .refl hpoint a (.head' hcontains ha)⟩

theorem Presentable.new_on_path (h : st.Presentable (.ref r))
    (hpath : Path st.Contains st.size path (.ref r)) : r ∉ path ∧ r < st.size :=
  ⟨fun hmem => h.acyclic _ .refl (hpath.leads r hmem),
    lt_size_of_view (h.showable r .refl).shown⟩

/-- What can be presented is composed of its parts, within as many steps down as there are places:
the places on the way are different ones. -/
theorem Presentable.composable_of_path (h : st.Presentable v) (hz : st.Fits z v)
    (hpath : Path st.Contains st.size path v) (hn : st.size ≤ n + path.length) :
    st.Composable z n v := by
  induction n generalizing v z path with
  | zero =>
    cases v with
    | null | bool | int | float | str | octets | stage | combinator =>
      exact .scalar fun _ => Value.noConfusion
    | ref r =>
      obtain ⟨hr, hlt⟩ := h.new_on_path hpath
      have hle := length_le_of_nodup (List.nodup_cons.mpr ⟨hr, hpath.nodup⟩)
        (List.forall_mem_cons.mpr ⟨hlt, hpath.inside⟩)
      rw [List.length_cons] at hle
      omega
  | succ n ih =>
    cases v with
    | null | bool | int | float | str | octets | stage | combinator =>
      exact .scalar fun _ => Value.noConfusion
    | ref r =>
      have hshow := h.showable r .refl
      obtain ⟨hr, hlt⟩ := h.new_on_path hpath
      have hpart : ∀ {z w}, st.Contains (.ref r) w → st.Fits z w → st.Composable z n w :=
        fun hw hz => ih (h.of_reach (.single hw)) hz (hpath.step hr hlt hw)
          (by rw [List.length_cons]; omega)
      cases hv : st.view r with
      | closed => exact absurd hv hshow.shown
      | items vs =>
        exact .items hv fun w hw => hpart (contains_item hv hw) (hz.item hv hw)
      | entries f es =>
        exact .entries hv hshow.tabled (hshow.keys f es hv) (hz.suits hv) fun e he =>
          hpart (contains_entry hv he) (hz.entry h hv he)

theorem fits_free (st : Store) (v : Value) : st.Fits .free v where
  opened h := absurd h Bool.false_ne_true
  copied h := by rcases h with h | h <;> cases h

theorem Presentable.composable (h : st.Presentable v) : st.Composable .free st.size v :=
  h.composable_of_path (st.fits_free v) (path_nil v) (Nat.le_refl _)

theorem Presentable.toJson_eq (h : st.Presentable v) :
    st.toJson v = (st.composed st.size v).map Json.render := by
  rw [toJson, h.composable.toDocument (Nat.le_refl _)]

/-! ### texts -/

theorem mapM_map {α β γ : Type} (f : α → Except Fault β) (g : β → γ) (xs : List α) :
    xs.mapM (fun x => (f x).map g) = (xs.mapM f).map (List.map g) := by
  induction xs with
  | nil => rfl
  | cons x xs ih =>
    rw [List.mapM_cons, List.mapM_cons, ih]
    cases f x with
    | error fault => rfl
    | ok y => cases xs.mapM f <;> rfl

theorem Presentable.toJson_items (h : st.Presentable (.ref r)) {vs : List Value}
    (hv : st.view r = .items vs) :
    st.toJson (.ref r) = (vs.mapM st.toJson).map Json.listText := by
  have hparts : vs.mapM st.toJson = (vs.mapM (st.composed st.size)).map (List.map Json.render) := by
    rw [← mapM_map]
    refine mapM_eq_of_forall₂ (List.forall₂_same.mpr fun w hw => ?_)
    exact (h.of_reach (.single (contains_item hv hw))).toJson_eq
  have hdeeper := (h.composable.mono (Nat.le_succ st.size)).2
  rw [h.toJson_eq, ← hdeeper, composed_items hv, hparts]
  cases vs.mapM (st.composed st.size) with
  | error fault => rfl
  | ok ds => exact congrArg Except.ok (Json.render_arr ds)

/-- The names of entries with the texts of their values. -/
def memberTexts (st : Store) (es : List (Value × Value)) : Except Fault (List Text) :=
  es.mapM fun (key, w) => do
    let name ← st.keyText key
    let t ← st.toJson w
    .ok (Json.memberText name t)

theorem Presentable.toJson_entries (h : st.Presentable (.ref r)) {f : Form}
    {es : List (Value × Value)} (hv : st.view r = .entries f es) :
    st.toJson (.ref r) = (st.memberTexts es).map Json.objectText := by
  have hparts : st.memberTexts es = (st.encodeEntries (st.composed st.size) es).map
      (List.map fun m => Json.memberText m.1 m.2.render) := by
    unfold memberTexts encodeEntries
    rw [← mapM_map]
    refine mapM_eq_of_forall₂ (List.forall₂_same.mpr fun e he => ?_)
    obtain ⟨key, w⟩ := e
    have hw := (h.of_reach (.single (contains_entry hv he))).toJson_eq
    dsimp only at hw ⊢
    rw [hw]
    cases st.keyText key with
    | error fault => rfl
    | ok name => cases st.composed st.size w <;> rfl
  have hdeeper := (h.composable.mono (Nat.le_succ st.size)).2
  rw [h.toJson_eq, ← hdeeper, composed_entries hv, hparts]
  cases st.encodeEntries (st.composed st.size) es with
  | error fault => rfl
  | ok ms => exact congrArg Except.ok (Json.render_obj ms)

theorem objectText_point (tx ty : Text) :
    Json.objectText [Json.memberText Name.x tx, Json.memberText Name.y ty]
      = ("\x7b\x22x\x22:" : Text) ++ tx ++ (",\x22y\x22:" : Text) ++ ty ++ ("\x7d" : Text) := by
  have hx : Json.literal Name.x = "\x22x\x22" := by decide
  have hy : Json.literal Name.y = "\x22y\x22" := by decide
  rw [Json.objectText, List.intercalate_cons_cons, List.intercalate_singleton, Json.memberText,
    Json.memberText, hx, hy]
  simp only [List.append_assoc]
  rfl

/-- **The text of a value is the same wherever it stands.** Within a value that can be presented,
however deep, the text of a list or a tuple is composed of the texts of its items, that of a table
or an object of the texts of its entries, and that of a point of the texts in its places. Where a
part has no text, its fault is the fault of the whole. -/
theorem toJson_composed (h : st.Presentable v) (hr : ReflTransGen st.Contains v (.ref r)) :
    (∀ vs, st.node r = .list vs ∨ st.node r = .tuple vs →
      st.toJson (.ref r) = (vs.mapM st.toJson).map Json.listText) ∧
    (∀ es, st.content r = .entries es →
      st.toJson (.ref r) = (st.memberTexts es).map Json.objectText) ∧
    (∀ x y, st.node r = .point (some x) (some y) → st.toJson (.ref r) = do
      let tx ← st.toJson x
      let ty ← st.toJson y
      .ok (("\x7b\x22x\x22:" : Text) ++ tx ++ (",\x22y\x22:" : Text) ++ ty
        ++ ("\x7d" : Text))) := by
  have hpart := h.of_reach hr
  refine ⟨fun vs hn => ?_, fun es hc => ?_, fun x y hn => ?_⟩
  · refine hpart.toJson_items ?_
    rcases hn with hn | hn
    · exact view_list hn
    · exact view_tuple hn
  · rcases st.content_eq_entries_iff.mp hc with hn | ⟨kind, attributes, hn, rfl⟩
    · exact hpart.toJson_entries (view_table hn)
    · exact hpart.toJson_entries (view_record hn)
  · rw [hpart.toJson_entries (view_point hn), memberTexts, List.mapM_cons, List.mapM_cons]
    dsimp only
    cases st.toJson x with
    | error fault => rfl
    | ok tx =>
      cases st.toJson y with
      | error fault => rfl
      | ok ty => exact congrArg Except.ok (objectText_point tx ty)

/-- A list that has a point twice and, in between, an object with an attribute that it does not
declare. In a place of the point this object stands too, but below one that is copied. -/
def nested : Store :=
  { nodes := #[
      .record .rectangle (.own [(Name.width, .int 1), (Name.height, .int 2), ("color", .null)]),
      .record .plain (.own [("_shape", .ref 0)]),
      .record .rectangle (.own [(Name.width, .int 3), (Name.height, .int 4)]),
      .point (some (.ref 1)) (some (.ref 2)),
      .list [.ref 3, .ref 0, .ref 3]] }

/-- Where parts come before the whole, in a list with all parts of its values, nothing holds
itself. -/
theorem rank_lt_of_transGen {parts : Value → List Value} (vs : List Value)
    (h : ∀ w ∈ vs, ∀ u ∈ parts w, u ∈ vs ∧ rank u < rank w) (hv : v ∈ vs)
    (hw : TransGen (fun v w => w ∈ parts v) v w) : rank w < rank v := by
  induction hw with
  | single hu => exact (h v hv _ hu).2
  | tail hb hu ih =>
    have hmem := mem_of_reflTransGen vs (fun w hw u hu => (h w hw u hu).1) hv hb.to_reflTransGen
    exact Nat.lt_trans (h _ hmem _ hu).2 ih

/-- Everything in the list. -/
def nestedValues : List Value :=
  [.ref 4, .ref 3, .ref 2, .ref 1, .ref 0, .int 1, .int 2, .int 3, .int 4, .null]

theorem mem_nestedValues (hw : ReflTransGen nested.Contains (.ref 4) w) : w ∈ nestedValues :=
  mem_of_reflTransGen nestedValues (by decide) (by decide) hw

theorem eq_of_mem_nestedValues (hr : Value.ref r ∈ nestedValues) :
    r = 4 ∨ r = 3 ∨ r = 2 ∨ r = 1 ∨ r = 0 := by
  simpa [nestedValues] using hr

theorem showable_nested (hr : Value.ref r ∈ nestedValues) : nested.Showable r := by
  rcases eq_of_mem_nestedValues hr with rfl | rfl | rfl | rfl | rfl
  all_goals
    refine ⟨fun h => (by cases h), fun kind table h => (by cases h), fun f es h => ?_⟩
    cases h
  all_goals simp [entries]

theorem eq_of_isPoint_nested {p : Value} (hp : p ∈ nestedValues) (h : nested.IsPoint p) :
    p = .ref 3 := by
  obtain ⟨r, x, y, rfl, hn⟩ := h
  rcases eq_of_mem_nestedValues hp with rfl | rfl | rfl | rfl | rfl
  · cases hn
  · rfl
  · cases hn
  · cases hn
  · cases hn

theorem presentable_nested : nested.Presentable (.ref 4) where
  acyclic w hw hcycle := Nat.lt_irrefl _
    (rank_lt_of_transGen nestedValues (by decide) (mem_nestedValues hw) hcycle)
  showable r hr := showable_nested (mem_nestedValues hr)
  exact_below p hp hpoint w hw := by
    cases eq_of_isPoint_nested (mem_nestedValues hp) hpoint
    have hmem : w ∈ [Value.ref 3, .ref 2, .ref 1, .int 3, .int 4] :=
      mem_of_reflTransGen _ (by decide) (by decide) hw.to_reflTransGen
    rintro r kind attributes rfl hn names hnames
    have hr : r = 3 ∨ r = 2 ∨ r = 1 := by simpa using hmem
    rcases hr with rfl | rfl | rfl
    · cases hn
    · cases hn
      cases hnames
      rfl
    · cases hn
      cases hnames
  copyable_below p hp hpoint w hw := by
    have hmem := mem_nestedValues (hp.trans hw.to_reflTransGen)
    rintro r kind attributes rfl hn
    rcases eq_of_mem_nestedValues hmem with rfl | rfl | rfl | rfl | rfl
    · cases hn
    · cases hn
    all_goals
      cases hn
      exact ⟨fun _ _ => Kind.noConfusion, by decide⟩

/-- The point shows the object with all its attributes, as the list does. -/
theorem toJson_composed_nested :
    nested.toJson (.ref 4)
      = ([Value.ref 3, .ref 0, .ref 3].mapM nested.toJson).map Json.listText ∧
    nested.toJson (.ref 3) = (do
      let tx ← nested.toJson (.ref 1)
      let ty ← nested.toJson (.ref 2)
      .ok (("\x7b\x22x\x22:" : Text) ++ tx ++ (",\x22y\x22:" : Text) ++ ty ++ ("\x7d" : Text))) ∧
    nested.toJson (.ref 3) = .ok
      (("\x7b\x22x\x22:\x7b\x22_shape\x22:\x7b\x22width\x22:1,\x22height\x22:2," : Text)
        ++ ("\x22color\x22:null\x7d\x7d,\x22y\x22:" : Text)
        ++ ("\x7b\x22width\x22:3,\x22height\x22:4\x7d\x7d" : Text)) := by
  obtain ⟨hlist, -, -⟩ := toJson_composed presentable_nested .refl
  have hreach : ReflTransGen nested.Contains (.ref 4) (.ref 3) :=
    .single (by show Value.ref 3 ∈ nested.shownParts (.ref 4); decide)
  obtain ⟨-, -, hpoint⟩ := toJson_composed presentable_nested hreach
  exact ⟨hlist _ (Or.inl rfl), hpoint _ _ rfl, by decide +kernel⟩

/-- A rectangle with an attribute that it does not declare and one without its second attribute,
each by itself and in a place of a point. -/
def framed : Store :=
  { nodes := #[
      .record .rectangle
        (.own [(Name.width, .int 1), (Name.height, .int 2), ("color", .str "red")]),
      .point (some (.ref 0)) (some (.int 0)),
      .record .rectangle (.own [(Name.width, .int 1)]),
      .point (some (.ref 2)) (some (.int 0))] }

theorem toJson_framed :
    framed.toJson (.ref 0)
      = .ok "\x7b\x22width\x22:1,\x22height\x22:2,\x22color\x22:\x22red\x22\x7d" ∧
    framed.toJson (.ref 1)
      = .ok "\x7b\x22x\x22:\x7b\x22width\x22:1,\x22height\x22:2\x7d,\x22y\x22:0\x7d" ∧
    framed.toJson (.ref 2) = .ok "\x7b\x22width\x22:1\x7d" ∧
    framed.toJson (.ref 3) = .error (.noAttribute "Rectangle" Name.height) := by
  decide +kernel

end Store

end SelectorForge
