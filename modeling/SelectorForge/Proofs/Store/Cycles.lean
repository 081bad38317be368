import SelectorForge.Proofs.Store.Revival

/-!
# Cycles and shared parts

The encoder keeps the places on its way. A place that comes up again on the way closes a cycle, and
a place that comes up on another way is only held twice. So it answers for every graph of encodable
values, after at most as many steps down as there are places:

* `Store.Encodable`         scalars with a document, and keys with a name;
* `Store.LeadsToCycle`      a value from which a value can be reached that holds itself;
* `Store.Alike`             two values of the same shape, wherever their parts are;
* `Store.IsTree`            nothing that a value holds is held twice;
* `Store.encode_answered`   the encoder answers a document or finds a cycle;
* `Store.toJson_unfolded`   which of both, and that the text is the text of the unfolded tree.
-/

namespace SelectorForge.Store

open Relation

/-! ### what the encoder answers -/

def Encodable (st : Store) : Value → Prop
  | .ref r =>
    match st.content r with
    | .items _ => True
    | .entries es => ∀ e ∈ es, ∃ name, KeyImage e.1 name
    | .closed => False
  | v => ∃ d, ScalarImage v d

/-- From a value another one can be reached that holds itself, at once or by others. -/
def LeadsToCycle (st : Store) (v : Value) : Prop :=
  ∃ w, ReflTransGen st.Holds v w ∧ TransGen st.Holds w w

/-- Either there is a document of the value or there is a cycle. -/
inductive Answered (st : Store) (v : Value) : Except Fault Json → Prop
  | document {d : Json} (h : st.Depicts v d) : Answered st v (.ok d)
  | cycle (h : st.LeadsToCycle v) : Answered st v (.error .circular)

variable {st st' st₀ : Store} {v w u : Value} {d : Json}

theorem LeadsToCycle.of_holds (h : st.LeadsToCycle w) (hw : st.Holds v w) :
    st.LeadsToCycle v := by
  obtain ⟨x, hx, hcycle⟩ := h
  exact ⟨x, hx.head hw, hcycle⟩

/-- A value with a document leads to no cycle. -/
theorem Depicts.not_leadsToCycle (h : st.Depicts v d) : ¬ st.LeadsToCycle v := by
  rintro ⟨w, hw, hcycle⟩
  refine not_transGen_self (R := st.Holds) ?_ hcycle
  clear hcycle
  induction hw with
  | refl => exact h.acc
  | tail _ hstep ih => exact ih.inv hstep

theorem lt_size_of_holds {r : Ref} (h : st.Holds (.ref r) w) : r < st.size := by
  refine st.lt_size_of_content_ne fun hc => ?_
  rw [holds_ref_iff, hc] at h
  exact absurd h List.not_mem_nil

theorem mapM_answered {encoded : Value → Except Fault Json} {vs : List Value}
    (h : ∀ v ∈ vs, st.Answered v (encoded v)) :
    (∃ ds, vs.mapM encoded = .ok ds ∧ st.DepictsItems vs ds) ∨
    (vs.mapM encoded = .error .circular ∧ ∃ v ∈ vs, st.LeadsToCycle v) := by
  induction vs with
  | nil => exact Or.inl ⟨[], rfl, .nil⟩
  | cons v vs ih =>
    obtain ⟨hfirst, hrest⟩ := List.forall_mem_cons.mp h
    rw [List.mapM_cons]
    generalize encoded v = answer at hfirst
    cases hfirst with
    | cycle hv => exact Or.inr ⟨rfl, v, List.mem_cons_self, hv⟩
    | @document d hv =>
      rcases ih hrest with ⟨ds, hds, hvs⟩ | ⟨herror, w, hw, hcycle⟩
      · exact Or.inl ⟨d :: ds, by rw [hds]; rfl, .cons hv hvs⟩
      · exact Or.inr ⟨by rw [herror]; rfl, w, List.mem_cons_of_mem v hw, hcycle⟩

theorem encodeEntries_cons {encoded : Value → Except Fault Json} {key : Value} {name : Text}
    (hk : KeyImage key name) (v : Value) (es : List (Value × Value)) :
    st.encodeEntries encoded ((key, v) :: es)
      = encoded v >>= fun d => (st.encodeEntries encoded es).map ((name, d) :: ·) := by
  unfold encodeEntries
  rw [List.mapM_cons]
  simp only [bind, Except.bind]
  rw [keyText_eq hk]
  cases encoded v <;> rfl

theorem encodeEntries_answered {encoded : Value → Except Fault Json} {es : List (Value × Value)}
    (hk : ∀ e ∈ es, ∃ name, KeyImage e.1 name)
    (h : ∀ v ∈ es.map Prod.snd, st.Answered v (encoded v)) :
    (∃ ms, st.encodeEntries encoded es = .ok ms ∧ st.DepictsEntries es ms) ∨
    (st.encodeEntries encoded es = .error .circular ∧
      ∃ v ∈ es.map Prod.snd, st.LeadsToCycle v) := by
  induction es with
  | nil => exact Or.inl ⟨[], rfl, .nil⟩
  | cons e es ih =>
    obtain ⟨key, v⟩ := e
    obtain ⟨⟨name, hname⟩, hnames⟩ := List.forall_mem_cons.mp hk
    obtain ⟨hfirst, hrest⟩ := List.forall_mem_cons.mp h
    rw [encodeEntries_cons hname]
    generalize encoded v = answer at hfirst
    cases hfirst with
    | cycle hv => exact Or.inr ⟨rfl, v, List.mem_cons_self, hv⟩
    | @document d hv =>
      rcases ih hnames hrest with ⟨ms, hms, hes⟩ | ⟨herror, w, hw, hcycle⟩
      · exact Or.inl ⟨(name, d) :: ms, by rw [hms]; rfl, .cons hname hv hes⟩
      · exact Or.inr ⟨by rw [herror]; rfl, w, List.mem_cons_of_mem v hw, hcycle⟩

/-- A place that comes up on the way from itself is found out. -/
theorem encode_circular {r : Ref} {path : List Ref} (hparts : (st.content r).parts ≠ [])
    (hr : r ∈ path) (fuel : Nat) : encode (fuel + 1) st path (.ref r) = .error .circular := by
  unfold content at hparts
  unfold encode
  cases hn : st.node r with
  | list vs | tuple vs | table vs =>
    rw [hn] at hparts
    simp only [hn, if_pos hr]
    cases vs with
    | nil => exact absurd rfl hparts
    | cons => rfl
  | record kind attributes => simp only [hn, if_pos hr]
  | set _ | point _ _ | «sealed» =>
    rw [hn] at hparts
    exact absurd rfl hparts

/-- **The encoder settles the matter**, whatever is on the way already: the places on the way and
the steps that are left are together more than the places of the store. -/
theorem encode_answered {path : List Ref} {fuel : Nat} (hp : Path st.Holds st.size path v)
    (hf : st.size < fuel + path.length)
    (h : ∀ w, ReflTransGen st.Holds v w → st.Encodable w) :
    st.Answered v (encode fuel st path v) := by
  induction fuel generalizing path v with
  | zero => exact absurd hp.length_le (by omega)
  | succ fuel ih =>
    have hv := h v .refl
    have hscalar : (∃ d, ScalarImage v d) → st.Answered v (encode (fuel + 1) st path v) := by
      rintro ⟨d, hd⟩
      rw [encode_scalar hd]
      exact .document (.scalar hd)
    cases v with
    | null | bool | int | float | str | octets | stage | combinator => exact hscalar hv
    | ref r =>
      by_cases hr : r ∈ path
      · have hcycle := hp.leads r hr
        obtain ⟨w, hw, -⟩ := TransGen.head'_iff.mp hcycle
        rw [encode_circular (List.ne_nil_of_mem hw) hr]
        exact .cycle ⟨_, .refl, hcycle⟩
      have hparts : ∀ w, st.Holds (.ref r) w → st.Answered w (encode fuel st (r :: path) w) :=
        fun w hw => ih (hp.step hr (lt_size_of_holds hw) hw) (by rw [List.length_cons]; omega)
          fun x hx => h x (.head hw hx)
      unfold Encodable at hv
      cases hc : st.content r with
      | closed => simp only [hc] at hv
      | items vs =>
        have hholds : ∀ w ∈ vs, st.Holds (.ref r) w := fun w hw => by
          rw [holds_ref_iff, hc]
          exact hw
        rw [encode_items hc hr]
        rcases mapM_answered fun w hw => hparts w (hholds w hw) with
          ⟨ds, hds, hvs⟩ | ⟨herror, w, hw, hcycle⟩
        · rw [hds]
          exact .document (.items hc hvs)
        · rw [herror]
          exact .cycle (hcycle.of_holds (hholds w hw))
      | entries es =>
        have hholds : ∀ w ∈ es.map Prod.snd, st.Holds (.ref r) w := fun w hw => by
          rw [holds_ref_iff, hc]
          exact hw
        simp only [hc] at hv
        rw [encode_entries hc hr]
        rcases encodeEntries_answered hv fun w hw => hparts w (hholds w hw) with
          ⟨ms, hms, hes⟩ | ⟨herror, w, hw, hcycle⟩
        · rw [hms]
          exact .document (.entries hc hes)
        · rw [herror]
          exact .cycle (hcycle.of_holds (hholds w hw))

/-! ### values of the same shape -/

mutual

/-- Two values of the same shape: equal scalars, and containers and objects of the same kinds with
equal keys, which can stand in different places. -/
inductive Alike (st st' : Store) : Value → Value → Prop
  | scalar {v : Value} (h : ∀ r, v ≠ .ref r) : Alike st st' v v
  | list {r r' : Ref} {vs us : List Value} (hn : st.node r = .list vs)
    (hn' : st'.node r' = .list us) (h : AlikeItems st st' vs us) : Alike st st' (.ref r) (.ref r')
  | tuple {r r' : Ref} {vs us : List Value} (hn : st.node r = .tuple vs)
    (hn' : st'.node r' = .tuple us) (h : AlikeItems st st' vs us) : Alike st st' (.ref r) (.ref r')
  | table {r r' : Ref} {es es' : List (Value × Value)} (hn : st.node r = .table es)
    (hn' : st'.node r' = .table es') (h : AlikeEntries st st' es es') :
    Alike st st' (.ref r) (.ref r')
  | record {r r' : Ref} {kind kind' : Kind} {attributes attributes' : Attributes}
    (hn : st.node r = .record kind attributes) (hn' : st'.node r' = .record kind' attributes')
    (hk : kind.name = kind'.name)
    (h : AlikeEntries st st' (st.entries attributes) (st'.entries attributes')) :
    Alike st st' (.ref r) (.ref r')

inductive AlikeItems (st st' : Store) : List Value → List Value → Prop
  | nil : AlikeItems st st' [] []
  | cons {v u : Value} {vs us : List Value} (h : Alike st st' v u)
    (hs : AlikeItems st st' vs us) : AlikeItems st st' (v :: vs) (u :: us)

inductive AlikeEntries (st st' : Store) : List (Value × Value) → List (Value × Value) → Prop
  | nil : AlikeEntries st st' [] []
  | cons {key v u : Value} {es es' : List (Value × Value)} (h : Alike st st' v u)
    (hs : AlikeEntries st st' es es') : AlikeEntries st st' ((key, v) :: es) ((key, u) :: es')

end

mutual

/-- The document of a value does not say where its parts stand. -/
theorem Alike.depicts {v u : Value} {d : Json} (h : st.Alike st' v u) (hd : st.Depicts v d) :
    st'.Depicts u d := by
  cases h with
  | scalar h =>
    cases hd with
    | scalar hd => exact .scalar hd
    | items | entries => exact absurd rfl (h _)
  | list hn hn' h =>
    cases hd with
    | scalar hd => cases hd
    | items hc hd =>
      rw [content, hn] at hc
      cases hc
      exact .items (by rw [content, hn']) (h.depicts hd)
    | entries hc hd =>
      rw [content, hn] at hc
      cases hc
  | tuple hn hn' h =>
    cases hd with
    | scalar hd => cases hd
    | items hc hd =>
      rw [content, hn] at hc
      cases hc
      exact .items (by rw [content, hn']) (h.depicts hd)
    | entries hc hd =>
      rw [content, hn] at hc
      cases hc
  | table hn hn' h =>
    cases hd with
    | scalar hd => cases hd
    | items hc hd =>
      rw [content, hn] at hc
      cases hc
    | entries hc hd =>
      rw [content, hn] at hc
      cases hc
      exact .entries (by rw [content, hn']) (h.depicts hd)
  | record hn hn' _ h =>
    cases hd with
    | scalar hd => cases hd
    | items hc hd =>
      rw [content, hn] at hc
      cases hc
    | entries hc hd =>
      rw [content, hn] at hc
      cases hc
      exact .entries (by rw [content, hn']) (h.depicts hd)

theorem AlikeItems.depicts {vs us : List Value} {ds : List Json} (h : st.AlikeItems st' vs us)
    (hd : st.DepictsItems vs ds) : st'.DepictsItems us ds := by
  cases h with
  | nil =>
    cases hd
    exact .nil
  | cons h hs =>
    cases hd with
    | cons hd hds => exact .cons (h.depicts hd) (hs.depicts hds)

theorem AlikeEntries.depicts {es es' : List (Value × Value)} {ms : List (Text × Json)}
    (h : st.AlikeEntries st' es es') (hd : st.DepictsEntries es ms) :
    st'.DepictsEntries es' ms := by
  cases h with
  | nil =>
    cases hd
    exact .nil
  | cons h hs =>
    cases hd with
    | cons hk hd hds => exact .cons hk (h.depicts hd) (hs.depicts hds)

end

/-- Entries under names are alike only to entries under the same names. -/
theorem AlikeEntries.exists_fields {fields : Fields Value} {es' : List (Value × Value)}
    (h : st.AlikeEntries st' (fields.map fun (name, v) => (.str name, v)) es') :
    ∃ fields' : Fields Value, es' = fields'.map fun (name, v) => (.str name, v) := by
  induction fields generalizing es' with
  | nil =>
    cases h
    exact ⟨[], rfl⟩
  | cons field fields ih =>
    obtain ⟨name, v⟩ := field
    cases h with
    | @cons _ _ u _ _ h hs =>
      obtain ⟨fields', rfl⟩ := ih hs
      exact ⟨(name, u) :: fields', rfl⟩

/-! ### unfolded trees -/

/-- The places that only a container or an object leads to: where it stands, and the table of its
attributes if that stands elsewhere. -/
def ownPlaces (st : Store) (r : Ref) : List Ref :=
  match st.node r with
  | .record _ (.shared table) => [r, table]
  | _ => [r]

mutual

/-- The places that come up on the ways through all that a value holds, one for each time. -/
inductive Visits (st : Store) : Value → List Ref → Prop
  | scalar {v : Value} (h : ∀ r, v ≠ .ref r) : Visits st v []
  | ref {r : Ref} {rs : List Ref} (h : VisitsAll st (st.content r).parts rs) :
    Visits st (.ref r) (st.ownPlaces r ++ rs)

inductive VisitsAll (st : Store) : List Value → List Ref → Prop
  | nil : VisitsAll st [] []
  | cons {v : Value} {vs : List Value} {rs rs' : List Ref} (h : Visits st v rs)
    (hs : VisitsAll st vs rs') : VisitsAll st (v :: vs) (rs ++ rs')

end

theorem VisitsAll.ref {r : Ref} {places rs : List Ref} {vs : List Value} (h : st.VisitsAll vs rs)
    (hplaces : st.ownPlaces r = places) (hparts : (st.content r).parts = vs) :
    st.Visits (.ref r) (places ++ rs) := by
  subst hplaces hparts
  exact .ref h

/-- Nothing is shared: no place comes up twice. -/
def IsTree (st : Store) (v : Value) : Prop := ∃ rs, st.Visits v rs ∧ rs.Nodup

/-- A store with new places, and what is true of it however it grows. -/
structure Behind (st₀ st₁ : Store) (rs : List Ref) (P : Store → Prop) : Prop where
  grown : Extends st₀ st₁
  nodup : rs.Nodup
  new : ∀ q ∈ rs, st₀.size ≤ q ∧ q < st₁.size
  remains : ∀ st₂, Extends st₁ st₂ → P st₂

theorem behind_refl {P : Store → Prop} (st₀ : Store) (h : ∀ st₂, P st₂) :
    Behind st₀ st₀ [] P :=
  ⟨.refl st₀, .nil, fun _ hq => absurd hq List.not_mem_nil, fun st₂ _ => h st₂⟩

theorem Behind.append {st₁ st₂ : Store} {rs rs' : List Ref} {P Q : Store → Prop}
    (h : Behind st₀ st₁ rs P) (h' : Behind st₁ st₂ rs' Q) :
    Behind st₀ st₂ (rs ++ rs') fun st => P st ∧ Q st where
  grown := h.grown.trans h'.grown
  nodup := List.nodup_append.mpr ⟨h.nodup, h'.nodup, fun a ha b hb hab =>
    absurd (h.new a ha).2 (Nat.not_lt.mpr (hab ▸ (h'.new b hb).1))⟩
  new q hq := by
    rcases List.mem_append.mp hq with hq | hq
    · exact ⟨(h.new q hq).1, Nat.lt_of_lt_of_le (h.new q hq).2 h'.grown.size_le⟩
    · exact ⟨Nat.le_trans h.grown.size_le (h'.new q hq).1, (h'.new q hq).2⟩
  remains st he := ⟨h.remains st (h'.grown.trans he), h'.remains st he⟩

theorem Behind.alloc {st₁ : Store} {rs : List Ref} {P : Store → Prop} (h : Behind st₀ st₁ rs P)
    {n : Node} (hn : n ≠ .sealed) :
    Behind st₀ (st₁.alloc n).2 (st₁.size :: rs) fun st => P st ∧ st.node st₁.size = n where
  grown := h.grown.trans (extends_alloc st₁ n)
  nodup := List.nodup_cons.mpr ⟨fun hmem => Nat.lt_irrefl _ (h.new _ hmem).2, h.nodup⟩
  new := List.forall_mem_cons.mpr ⟨⟨h.grown.size_le, st₁.size_lt_alloc n⟩, fun q hq =>
    ⟨(h.new q hq).1, Nat.lt_trans (h.new q hq).2 (st₁.size_lt_alloc n)⟩⟩
  remains st he := ⟨h.remains st ((extends_alloc st₁ n).trans he),
    he.node_eq_of_ne (st₁.node_alloc_self n) hn⟩

theorem Behind.imp {st₁ : Store} {rs : List Ref} {P Q : Store → Prop} (h : Behind st₀ st₁ rs P)
    (hPQ : ∀ st, P st → Q st) : Behind st₀ st₁ rs Q :=
  ⟨h.grown, h.nodup, h.new, fun st he => hPQ st (h.remains st he)⟩

mutual

/-- Behind any store there is room for the unfolded tree of a value with a document. -/
theorem Depicts.exists_unfolded {v : Value} {d : Json} (h : st.Depicts v d) (st₀ : Store) :
    ∃ st₁ rs u, Behind st₀ st₁ rs fun st₂ => st.Alike st₂ v u ∧ st₂.Visits u rs := by
  cases h with
  | scalar h =>
    have hv : ∀ r, v ≠ .ref r := fun r hr => by
      rw [hr] at h
      cases h
    exact ⟨st₀, [], v, behind_refl st₀ fun st₂ => ⟨.scalar hv, .scalar hv⟩⟩
  | @items r vs ds hc h =>
    obtain ⟨st₁, rs, us, hus⟩ := h.exists_unfolded st₀
    rcases (st.content_eq_items_iff).mp hc with hn | hn
    · refine ⟨_, _, .ref st₁.size, (hus.alloc (n := .list us) Node.noConfusion).imp ?_⟩
      rintro st₂ ⟨⟨halike, hvisits⟩, hn'⟩
      exact ⟨.list hn hn' halike, hvisits.ref (by rw [ownPlaces, hn']) (by rw [content, hn']; rfl)⟩
    · refine ⟨_, _, .ref st₁.size, (hus.alloc (n := .tuple us) Node.noConfusion).imp ?_⟩
      rintro st₂ ⟨⟨halike, hvisits⟩, hn'⟩
      exact ⟨.tuple hn hn' halike, hvisits.ref (by rw [ownPlaces, hn']) (by rw [content, hn']; rfl)⟩
  | @entries r es ms hc h =>
    obtain ⟨st₁, rs, es', hes⟩ := h.exists_unfolded st₀
    rcases (st.content_eq_entries_iff).mp hc with hn | ⟨kind, attributes, hn, rfl⟩
    · refine ⟨_, _, .ref st₁.size, (hes.alloc (n := .table es') Node.noConfusion).imp ?_⟩
      rintro st₂ ⟨⟨halike, hvisits⟩, hn'⟩
      exact ⟨.table hn hn' halike, hvisits.ref (by rw [ownPlaces, hn']) (by rw [content, hn']; rfl)⟩
    · cases attributes with
      | own fields =>
        obtain ⟨fields', rfl⟩ := (hes.remains st₁ (.refl st₁)).1.exists_fields
        refine ⟨_, _, .ref st₁.size,
          (hes.alloc (n := .record kind (.own fields')) Node.noConfusion).imp ?_⟩
        rintro st₂ ⟨⟨halike, hvisits⟩, hn'⟩
        exact ⟨.record hn hn' rfl halike,
          hvisits.ref (by rw [ownPlaces, hn']) (by rw [content, hn']; rfl)⟩
      | shared table =>
        -- the new object has a table of its own where the old one may share it
        refine ⟨_, _, .ref (st₁.alloc (.table es')).2.size,
          ((hes.alloc (n := .table es') Node.noConfusion).alloc
            (n := .record kind (.shared st₁.size)) Node.noConfusion).imp ?_⟩
        rintro st₂ ⟨⟨⟨halike, hvisits⟩, htable⟩, hn'⟩
        have hentries : st₂.entries (.shared st₁.size) = es' := by
          rw [entries_shared, tableEntries, htable]
        refine ⟨.record hn hn' rfl (by rw [hentries]; exact halike), ?_⟩
        exact hvisits.ref (by rw [ownPlaces, hn'])
          (by rw [st₂.content_eq_entries_iff.mpr (Or.inr ⟨_, _, hn', hentries⟩)]; rfl)

theorem DepictsItems.exists_unfolded {vs : List Value} {ds : List Json}
    (h : st.DepictsItems vs ds) (st₀ : Store) :
    ∃ st₁ rs us, Behind st₀ st₁ rs fun st₂ => st.AlikeItems st₂ vs us ∧ st₂.VisitsAll us rs := by
  cases h with
  | nil => exact ⟨st₀, [], [], behind_refl st₀ fun st₂ => ⟨.nil, .nil⟩⟩
  | cons h hs =>
    obtain ⟨st₁, rs, u, hu⟩ := h.exists_unfolded st₀
    obtain ⟨st₂, rs', us, hus⟩ := hs.exists_unfolded st₁
    exact ⟨st₂, rs ++ rs', u :: us, (hu.append hus).imp fun _ h =>
      ⟨.cons h.1.1 h.2.1, .cons h.1.2 h.2.2⟩⟩

theorem DepictsEntries.exists_unfolded {es : List (Value × Value)} {ms : List (Text × Json)}
    (h : st.DepictsEntries es ms) (st₀ : Store) :
    ∃ st₁ rs es', Behind st₀ st₁ rs fun st₂ =>
      st.AlikeEntries st₂ es es' ∧ st₂.VisitsAll (es'.map Prod.snd) rs := by
  cases h with
  | nil => exact ⟨st₀, [], [], behind_refl st₀ fun st₂ => ⟨.nil, .nil⟩⟩
  | @cons key _ _ _ _ _ _ h hs =>
    obtain ⟨st₁, rs, u, hu⟩ := h.exists_unfolded st₀
    obtain ⟨st₂, rs', es', hes⟩ := hs.exists_unfolded st₁
    exact ⟨st₂, rs ++ rs', (key, u) :: es', (hu.append hes).imp fun _ h =>
      ⟨.cons h.1.1 h.2.1, .cons h.1.2 h.2.2⟩⟩

end

/-- **Cycles are found and nothing else is taken for one.** If scalars, keys and objects can all be
encoded, the encoder answers within as many steps down as there are places, and from then on the
bound does not matter. It reports a cycle exactly if the value leads to one. Otherwise there is a
text: the text of the unfolded tree, in which nothing is shared, and of any value of this shape. -/
theorem toJson_unfolded (h : ∀ w, ReflTransGen st.Holds v w → st.Encodable w) :
    (∀ fuel, st.size < fuel → encode fuel st [] v = st.toDocument v) ∧
    (st.toJson v = .error .circular ↔ st.LeadsToCycle v) ∧
    (¬ st.LeadsToCycle v → ∃ t, st.toJson v = .ok t ∧
      (∃ st' u, st.Alike st' v u ∧ st'.IsTree u) ∧
      ∀ st' u, st.Alike st' v u → st'.toJson u = .ok t) := by
  have hanswered : ∀ fuel, st.size < fuel → st.Answered v (encode fuel st [] v) := fun fuel hf =>
    encode_answered (path_nil v) hf h
  have hdocument : st.Answered v (st.toDocument v) :=
    hanswered _ (by unfold encodeFuel; omega)
  refine ⟨fun fuel hf => ?_, ?_, fun hcycle => ?_⟩
  · have hfuel := hanswered fuel hf
    generalize encode fuel st [] v = a at hfuel
    generalize st.toDocument v = b at hdocument
    cases hfuel with
    | document hd =>
      cases hdocument with
      | document hd' => rw [hd.unique hd']
      | cycle hcycle => exact absurd hcycle hd.not_leadsToCycle
    | cycle hcycle =>
      cases hdocument with
      | document hd => exact absurd hcycle hd.not_leadsToCycle
      | cycle => rfl
  · unfold toJson
    generalize st.toDocument v = a at hdocument
    cases hdocument with
    | document hd =>
      refine ⟨fun herror => ?_, fun hcycle => absurd hcycle hd.not_leadsToCycle⟩
      cases herror
    | cycle hcycle => exact ⟨fun _ => hcycle, fun _ => rfl⟩
  · generalize st.toDocument v = a at hdocument
    cases hdocument with
    | cycle h => exact absurd h hcycle
    | @document d hd =>
      obtain ⟨st₁, rs, u, hu⟩ := hd.exists_unfolded st
      obtain ⟨halike, hvisits⟩ := hu.remains st₁ (.refl st₁)
      exact ⟨d.render, hd.toJson, ⟨st₁, u, halike, rs, hvisits, hu.nodup⟩,
        fun st' u halike => (halike.depicts hd).toJson⟩

instance (st : Store) (v w : Value) : Decidable (st.Holds v w) :=
  inferInstanceAs (Decidable (w ∈ st.parts v))

/-- A list, a tuple, an object and a table, each of which holds the next, and the last the first. -/
def looping : Store :=
  { nodes := #[
      .list [.ref 1, .int 0],
      .tuple [.ref 2],
      .record .plain (.own [("next", .ref 3)]),
      .table [(.int 1, .ref 0)]] }

theorem encodable_looping {w : Value} (hw : ReflTransGen looping.Holds (.ref 0) w) :
    looping.Encodable w := by
  have hmem :=
    mem_of_reflTransGen [.ref 0, .ref 1, .ref 2, .ref 3, .int 0] (by decide) (by decide) hw
  simp only [List.mem_cons, List.not_mem_nil, or_false] at hmem
  have hzero : Number.FitsDigits 0 := fitsDigits_of_lt_ten (by decide)
  have hone : Number.FitsDigits 1 := fitsDigits_of_lt_ten (by decide)
  rcases hmem with rfl | rfl | rfl | rfl | rfl
  · trivial
  · trivial
  · exact List.forall_mem_singleton.mpr ⟨_, .str _⟩
  · exact List.forall_mem_singleton.mpr ⟨_, .int hone⟩
  · exact ⟨_, .int hzero⟩

theorem Admitted.encodable (h : st.Admitted v) : st.Encodable v := by
  have hscalar : AdmittedScalar v → ∃ d, ScalarImage v d := fun hv => by
    obtain ⟨d, hd, -⟩ := exists_scalarImage hv
    exact ⟨d, hd⟩
  cases v with
  | ref r =>
    unfold Admitted at h
    unfold Encodable
    cases hc : st.content r with
    | items vs => simp only [hc]
    | entries es =>
      simp only [hc] at h ⊢
      intro e he
      obtain ⟨name, hname, -⟩ := exists_keyImage (h e he)
      exact ⟨name, hname⟩
    | closed => simp only [hc] at h
  | null | bool | int | float | str | octets | stage | combinator => exact hscalar h

/-- A cycle through all kinds of containers is found, and a list that is held twice is none. -/
theorem toJson_unfolded_looping : looping.toJson (.ref 0) = .error .circular ∧
    ∃ t st' u, sharing.toJson (.ref 2) = .ok t ∧ sharing.Alike st' (.ref 2) u ∧ st'.IsTree u ∧
      st'.toJson u = .ok t := by
  have hloop : looping.LeadsToCycle (.ref 0) := by
    refine ⟨.ref 0, .refl, ?_⟩
    exact .head (b := .ref 1) (by decide) (.head (b := .ref 2) (by decide)
      (.head (b := .ref 3) (by decide) (.single (by decide))))
  have hnone : ¬ sharing.LeadsToCycle (.ref 2) := by
    rintro ⟨w, hw, hcycle⟩
    exact descending_sharing.acyclic _ w hw hcycle
  obtain ⟨-, hcircular, -⟩ := toJson_unfolded fun _ hw => encodable_looping hw
  obtain ⟨-, -, htext⟩ := toJson_unfolded fun _ hw => (admitted_sharing hw).encodable
  obtain ⟨t, ht, ⟨st', u, halike, htree⟩, hall⟩ := htext hnone
  exact ⟨hcircular.mpr hloop, t, st', u, ht, halike, htree, hall st' u halike⟩

end SelectorForge.Store
