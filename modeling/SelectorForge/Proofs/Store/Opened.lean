import SelectorForge.Proofs.Store.Copied

/-!
# What is laid open shows what it was

A value below a point is laid open: lists, tuples and tables are made anew, objects that declare
their attributes become tables of them, and everything else is copied. If the objects that declare
attributes have exactly these, the document stays the same:

* `Store.Opens`           a step of laying open succeeds, adds to the store and answers what it should;
* `Store.Shows`           a value has the document of another one;
* `opensAt`               a composable value is laid open, and the outcome shows it;
* `exists_opened_point`   a point is laid open to a table of what its places show.
-/

namespace SelectorForge.Store

open Opening

variable {st st₁ : Store} {n fuel : Nat} {z : Zone} {r : Ref} {v v' : Value} {α β : Type}

/-! ### steps that add to a store -/

/-- A step succeeds, it only adds to the store, and what is asked of its answer stays true. -/
def Opens (st : Store) (step : Opening α) (R : α → Store → Prop) : Prop :=
  ∃ a st', step.run st = .ok (a, st') ∧ Extends st st' ∧ ∀ st₂, Extends st' st₂ → R a st₂

theorem opens_pure {a : α} {R : α → Store → Prop} (h : ∀ st₂, Extends st st₂ → R a st₂) :
    Opens st (pure a) R :=
  ⟨a, st, rfl, .refl st, h⟩

theorem Opens.imp {step : Opening α} {R S : α → Store → Prop} (h : Opens st step R)
    (hRS : ∀ a st₂, R a st₂ → S a st₂) : Opens st step S := by
  obtain ⟨a, st₁, hrun, he, hR⟩ := h
  exact ⟨a, st₁, hrun, he, fun st₂ he₂ => hRS a st₂ (hR st₂ he₂)⟩

theorem Opens.bind {step : Opening α} {next : α → Opening β} {R : α → Store → Prop}
    {S : β → Store → Prop} (h : Opens st step R)
    (hnext : ∀ a st₁, Extends st st₁ → (∀ st₂, Extends st₁ st₂ → R a st₂) →
      Opens st₁ (next a) S) : Opens st (step >>= next) S := by
  obtain ⟨a, st₁, hrun, he, hR⟩ := h
  obtain ⟨b, st₂, hrun', he', hS⟩ := hnext a st₁ he hR
  refine ⟨b, st₂, ?_, he.trans he', hS⟩
  rw [StateT.run_bind, hrun]
  exact hrun'

theorem opens_mapM {f : α → Opening β} {R : α → β → Store → Prop} {xs : List α}
    (hf : ∀ x ∈ xs, ∀ st₁, Extends st st₁ → Opens st₁ (f x) (R x)) (he : Extends st st₁) :
    Opens st₁ (xs.mapM f) fun ys st₂ => List.Forall₂ (fun x y => R x y st₂) xs ys := by
  induction xs generalizing st₁ with
  | nil => exact opens_pure fun _ _ => .nil
  | cons x xs ih =>
    obtain ⟨hfirst, hrest⟩ := List.forall_mem_cons.mp hf
    rw [List.mapM_cons]
    refine (hfirst st₁ he).bind fun y st₂ he₂ hy => ?_
    refine (ih hrest (he.trans he₂)).bind fun ys st₃ he₃ hys => ?_
    exact opens_pure fun st₄ he₄ => .cons (hy st₄ (he₃.trans he₄)) (hys st₄ he₄)

theorem opens_ask {question : Store → Except Fault α} {a : α} {R : α → Store → Prop}
    (h : question st = .ok a) (hR : ∀ st₂, Extends st st₂ → R a st₂) :
    Opens st (ask question) R := by
  refine ⟨a, st, ?_, .refl st, hR⟩
  show (liftM (question st) : Opening α).run st = _
  rw [h]
  rfl

theorem opens_place {m : Node} {R : Value → Store → Prop} (hm : m ≠ .sealed)
    (hR : ∀ place st₂, Extends st st₂ → st₂.node place = m → R (.ref place) st₂) :
    Opens st (place m) R := by
  have halloc := extends_alloc st m
  exact ⟨.ref st.size, (st.alloc m).2, rfl, halloc, fun st₂ he => hR st.size st₂ (halloc.trans he)
    (he.node_eq_of_ne (st.node_alloc_self m) hm)⟩

/-! ### single nodes -/

/-- A value of some depth has the document of another one. -/
structure Shows (st : Store) (n : Nat) (v : Value) (st' : Store) (v' : Value) : Prop where
  composable : st'.Composable .free n v'
  composed_eq : st'.composed n v' = st.composed n v

theorem layOpen_scalar (h : ∀ r, v ≠ .ref r) (fuel : Nat) : layOpen (fuel + 1) v = pure v := by
  cases v with
  | ref r => exact absurd rfl (h r)
  | null | bool | int | float | str | octets | stage | combinator => rfl

theorem checkKey_scalar (h : ∀ r, v ≠ .ref r) (st : Store) (fuel : Nat) :
    checkKey st (fuel + 1) v = .ok () := by
  cases v with
  | ref r => exact absurd rfl (h r)
  | null | bool | int | float | str | octets | stage | combinator => rfl

theorem run_layOpen_ask (question : Store → α) (st : Store) :
    (ask fun st => .ok (question st)).run st = pure (question st, st) := rfl

theorem run_layOpen_list {vs : List Value} (hn : st.node r = .list vs) :
    (layOpen (fuel + 1) (.ref r)).run st
      = (do place (.list (← vs.mapM (layOpen fuel))) : Opening Value).run st := by
  conv_lhs => unfold layOpen
  simp only [StateT.run_bind, run_layOpen_ask, pure_bind, hn]

theorem run_layOpen_tuple {vs : List Value} (hn : st.node r = .tuple vs) :
    (layOpen (fuel + 1) (.ref r)).run st
      = (do place (.tuple (← vs.mapM (layOpen fuel))) : Opening Value).run st := by
  conv_lhs => unfold layOpen
  simp only [StateT.run_bind, run_layOpen_ask, pure_bind, hn]

theorem run_layOpen_table {es : List (Value × Value)} (hn : st.node r = .table es) :
    (layOpen (fuel + 1) (.ref r)).run st = (do
      let entries ← es.mapM fun e => do
        let key ← layOpen fuel e.1
        let value ← layOpen fuel e.2
        ask fun st => checkKey st (st.size + 1) key
        pure (key, value)
      place (.table entries) : Opening Value).run st := by
  conv_lhs => unfold layOpen
  simp only [StateT.run_bind, run_layOpen_ask, pure_bind, hn]

theorem run_layOpen_declared {m : Node} {names : List Text} (hn : st.node r = m)
    (hm : declared? m = some names) :
    (layOpen (fuel + 1) (.ref r)).run st = (do
      let names ← ask fun st => st.openNames names (.ref r)
      let entries ← names.mapM fun name => do
        let value ← layOpen fuel (← ask fun st => st.lookup (.ref r) name)
        pure (.str name, value)
      place (.table entries) : Opening Value).run st := by
  conv_lhs => unfold layOpen
  simp only [StateT.run_bind, run_layOpen_ask, pure_bind, hn]
  cases m with
  | list | tuple | set | table | «sealed» => cases hm
  | record | point => simp only [hm, StateT.run_bind]

theorem run_layOpen_undeclared {kind : Kind} {attributes : Attributes}
    (hn : st.node r = .record kind attributes) (hkind : kind.declared? = none) :
    (layOpen (fuel + 1) (.ref r)).run st = st.copy (.ref r) := by
  have hm : declared? (.record kind attributes) = none := hkind
  conv_lhs => unfold layOpen
  simp only [StateT.run_bind, run_layOpen_ask, pure_bind, hn, hm]
  rfl

/-! ### names of declared attributes -/

theorem exists_fields_of_map_fst_eq {names : List Text} {es : List (Value × Value)}
    (h : es.map Prod.fst = names.map .str) :
    ∃ fields : Fields Value, fields.map Prod.fst = names ∧
      es = fields.map fun (name, v) => (.str name, v) := by
  induction es generalizing names with
  | nil =>
    cases List.map_eq_nil_iff.mp h.symm
    exact ⟨[], rfl, rfl⟩
  | cons e es ih =>
    obtain ⟨key, w⟩ := e
    obtain ⟨name, names, rfl, hkey, hrest⟩ := List.map_eq_cons_iff.mp h.symm
    obtain ⟨fields, rfl, rfl⟩ := ih hrest.symm
    cases hkey
    exact ⟨(name, w) :: fields, rfl, rfl⟩

theorem get?_of_mem {fields : Fields Value} (hnodup : (fields.map Prod.fst).Nodup)
    {field : Text × Value} (h : field ∈ fields) : Fields.get? field.1 fields = some field.2 := by
  induction fields with
  | nil => exact absurd h List.not_mem_nil
  | cons first fields ih =>
    obtain ⟨hfirst, hrest⟩ := List.nodup_cons.mp hnodup
    rw [Fields.get?_cons]
    rcases List.mem_cons.mp h with rfl | h
    · rw [if_pos rfl]
    · have hne : first.1 ≠ field.1 := fun heq => hfirst (heq ▸ List.mem_map_of_mem h)
      rw [if_neg hne]
      exact ih hrest h

/-- Declared attributes have different names, and what belongs to an object otherwise does not come
before them. -/
theorem declared?_names {kind : Kind} {names : List Text} (h : kind.declared? = some names) :
    (Name.declaredTable :: names).Nodup ∧
    (∀ name ∈ Name.declaredTable :: names, kind.reserved? name = none) ∧
    kind.default? Name.declaredTable = none := by
  cases kind <;> cases h <;> decide

theorem lookup_record {kind : Kind} {attributes : Attributes} {name : Text}
    (hn : st.node r = .record kind attributes) (hname : kind.reserved? name = none) :
    st.lookup (.ref r) name = recordAttribute kind (st.fields attributes) name := by
  simp only [lookup, hn, hname]

/-- An object with exactly the attributes it declares answers them, and no declarations. -/
theorem lookup_exact {kind : Kind} {attributes : Attributes} {fields : Fields Value}
    (hn : st.node r = .record kind attributes) (hs : st.Tabled r)
    (hkind : kind.declared? = some (fields.map Prod.fst))
    (hfields : st.entries attributes = fields.map fun (name, v) => (.str name, v))
    (he : Extends st st₁) :
    (∃ fault, st₁.lookup (.ref r) Name.declaredTable = .error fault) ∧
      ∀ field ∈ fields, st₁.lookup (.ref r) field.1 = .ok field.2 := by
  obtain ⟨hnodup, hreserved, hdefault⟩ := declared?_names hkind
  obtain ⟨hnot, hnodup⟩ := List.nodup_cons.mp hnodup
  have hn₁ := he.node_eq_of_ne hn Node.noConfusion
  have hfields₁ : st₁.fields attributes = fields := by
    rw [he.fields_eq hs hn, fields_eq_filterMap_entries, hfields, List.filterMap_map]
    exact List.filterMap_some
  constructor
  · have hnone : Fields.get? Name.declaredTable fields = none := by
      rw [← hfields₁]
      refine get?_eq_none fun e hmem hkey => hnot ?_
      rw [he.entries_eq hs hn, hfields] at hmem
      obtain ⟨field, hfield, rfl⟩ := List.mem_map.mp hmem
      have hname : field.1 = Name.declaredTable := Option.some.inj hkey
      exact hname ▸ List.mem_map_of_mem hfield
    rw [lookup_record hn₁ (hreserved _ List.mem_cons_self), hfields₁, recordAttribute, hnone,
      hdefault]
    exact ⟨_, rfl⟩
  · intro field hfield
    have hmem : field.1 ∈ fields.map Prod.fst := List.mem_map_of_mem hfield
    rw [lookup_record hn₁ (hreserved _ (List.mem_cons_of_mem _ hmem)), hfields₁, recordAttribute,
      get?_of_mem hnodup hfield]

theorem lookup_point {x y : Value} (hn : st.node r = .point (some x) (some y))
    (he : Extends st st₁) :
    (∃ fault, st₁.lookup (.ref r) Name.declaredTable = .error fault) ∧
      ∀ field ∈ [(Name.x, x), (Name.y, y)], st₁.lookup (.ref r) field.1 = .ok field.2 := by
  have hn₁ := he.node_eq_of_ne hn Node.noConfusion
  constructor
  · refine ⟨.noAttribute (st₁.typeName (.ref r)) Name.declaredTable, ?_⟩
    simp only [lookup, hn₁]
    rfl
  · refine List.forall_mem_cons.mpr ⟨?_, List.forall_mem_singleton.mpr ?_⟩
    · simp only [lookup, hn₁]
      rfl
    · simp only [lookup, hn₁]
      rfl

/-! ### values of a depth -/

theorem shows_items {r place : Ref} {vs vs' : List Value} (hv : st.view r = .items vs)
    (hv' : st₁.view place = .items vs')
    (h : List.Forall₂ (fun w w' => Shows st n w st₁ w') vs vs') :
    Shows st (n + 1) (.ref r) st₁ (.ref place) where
  composable := .items hv' (forall_mem_of_forall₂ h (fun _ _ => trivial)
    fun _ _ hw _ => hw.composable)
  composed_eq := by
    rw [composed_items hv, composed_items hv']
    rw [mapM_eq_of_forall₂ (h.imp fun _ _ hw => hw.composed_eq)]

/-- A table shows what an object with these entries shows. -/
theorem shows_entries {r place : Ref} {f : Form} {es es' : List (Value × Value)}
    (hv : st.view r = .entries f es) (hk : ∀ e ∈ es, ∀ q, e.1 ≠ .ref q)
    (hn' : st₁.node place = .table es')
    (h : List.Forall₂ (fun e e' => e'.1 = e.1 ∧ Shows st n e.2 st₁ e'.2) es es') :
    Shows st (n + 1) (.ref r) st₁ (.ref place) where
  composable := composable_table hn'
    (forall_mem_of_forall₂ h hk fun _ _ he hkey => he.1 ▸ hkey)
    (forall_mem_of_forall₂ h (fun _ _ => trivial) fun _ _ he _ => he.2.composable)
  composed_eq := by
    rw [composed_entries hv, composed_entries (view_table hn')]
    rw [encodeEntries_eq_of_forall₂ st st₁ (h.imp fun _ _ he => ⟨he.1, he.2.composed_eq⟩) hk]

/-- Values up to a depth can be laid open, whatever has been added to the store. -/
def OpensAt (st : Store) (n : Nat) : Prop :=
  ∀ {z : Zone} {v : Value} {fuel : Nat} {st₁ : Store}, z.opened = true → st.Composable z n v →
    n < fuel → Extends st st₁ → Opens st₁ (layOpen fuel v) fun v' st₂ => Shows st n v st₂ v'

theorem opens_table (ih : st.OpensAt n) (hz : z.opened = true) (hf : n < fuel)
    {es : List (Value × Value)} (hn : st.node r = .table es)
    (hk : ∀ e ∈ es, ∀ q, e.1 ≠ .ref q) (h : ∀ e ∈ es, st.Composable z n e.2)
    (he : Extends st st₁) :
    Opens st₁ (layOpen (fuel + 1) (.ref r)) fun v' st₂ => Shows st (n + 1) (.ref r) st₂ v' := by
  have hentry : ∀ e ∈ es, ∀ st₁, Extends st st₁ → Opens st₁ (do
      let key ← layOpen fuel e.1
      let value ← layOpen fuel e.2
      ask fun st => checkKey st (st.size + 1) key
      pure (key, value))
      fun e' st₂ => e'.1 = e.1 ∧ Shows st n e.2 st₂ e'.2 := by
    intro e hmem st₁ he
    obtain ⟨fuel, rfl⟩ := Nat.exists_eq_succ_of_ne_zero (Nat.ne_of_gt (Nat.zero_lt_of_lt hf))
    rw [layOpen_scalar (hk e hmem), pure_bind]
    refine (ih hz (h e hmem) hf he).bind fun value st₂ _ hvalue => ?_
    refine (opens_ask (R := fun _ _ => True) (checkKey_scalar (hk e hmem) st₂ _)
      fun _ _ => trivial).bind fun _ st₃ he₃ _ => ?_
    exact opens_pure fun st₄ he₄ => ⟨rfl, hvalue st₄ (he₃.trans he₄)⟩
  rw [Opens, run_layOpen_table (he.node_eq_of_ne hn Node.noConfusion)]
  refine (opens_mapM hentry he).bind fun es' st₂ _ hes => opens_place Node.noConfusion ?_
  exact fun place st₃ he₃ hn' => shows_entries (view_table hn) hk hn' (hes st₃ he₃)

theorem opens_declared (ih : st.OpensAt n) (hz : z.opened = true) (hf : n < fuel) {f : Form}
    {fields : Fields Value} {es : List (Value × Value)} (hv : st.view r = .entries f es)
    (hes : es = fields.map fun (name, v) => (.str name, v))
    (hm : declared? (st.node r) = some (fields.map Prod.fst))
    (hlookup : ∀ st₁, Extends st st₁ →
      (∃ fault, st₁.lookup (.ref r) Name.declaredTable = .error fault) ∧
      ∀ field ∈ fields, st₁.lookup (.ref r) field.1 = .ok field.2)
    (h : ∀ e ∈ es, st.Composable z n e.2) (he : Extends st st₁) :
    Opens st₁ (layOpen (fuel + 1) (.ref r)) fun v' st₂ => ∃ place es', v' = .ref place ∧
      st₂.node place = .table es' ∧ Shows st (n + 1) (.ref r) st₂ v' := by
  have hne : st.node r ≠ .sealed := node_ne_of_view (by rw [hv]; exact View.noConfusion)
  have hm₁ : declared? (st₁.node r) = some (fields.map Prod.fst) := by
    rwa [he.node_eq_of_ne rfl hne]
  rw [Opens, run_layOpen_declared rfl hm₁]
  have hnames : st₁.openNames (fields.map Prod.fst) (.ref r) = .ok (fields.map Prod.fst) := by
    obtain ⟨⟨fault, hfault⟩, -⟩ := hlookup st₁ he
    rw [openNames, hfault]
  refine (opens_ask (R := fun names _ => names = fields.map Prod.fst) hnames fun _ _ => rfl).bind ?_
  rintro names st₂ he₂ hR
  cases hR st₂ (.refl st₂)
  rw [List.mapM_map]
  have hfield : ∀ field ∈ fields, ∀ st₁, Extends st st₁ → Opens st₁ (do
      let value ← layOpen fuel (← ask fun st => st.lookup (.ref r) field.1)
      pure (Value.str field.1, value))
      fun e' st₂ => e'.1 = .str field.1 ∧ Shows st n field.2 st₂ e'.2 := by
    intro field hfield st₁ he
    have hcomposable := h (.str field.1, field.2) (hes ▸ List.mem_map_of_mem hfield)
    refine (opens_ask (R := fun v _ => v = field.2) ((hlookup st₁ he).2 field hfield)
      fun _ _ => rfl).bind fun v st₂ he₂ hv => ?_
    cases hv st₂ (.refl st₂)
    refine (ih hz hcomposable hf (he.trans he₂)).bind fun value st₃ _ hvalue => ?_
    exact opens_pure fun st₄ he₄ => ⟨rfl, hvalue st₄ he₄⟩
  refine (opens_mapM hfield (he.trans he₂)).bind fun entries st₃ _ hentries => ?_
  refine opens_place Node.noConfusion fun place st₄ he₄ hn => ⟨place, entries, rfl, hn, ?_⟩
  refine shows_entries hv ?_ hn ?_
  · rw [hes]
    intro e he q heq
    obtain ⟨field, _, rfl⟩ := List.mem_map.mp he
    cases heq
  · rw [hes]
    exact List.forall₂_map_left_iff.mpr (hentries st₄ he₄)

theorem opens_point (ih : st.OpensAt n) (hf : n < fuel) {x y : Value}
    (hn : st.node r = .point (some x) (some y))
    (h : ∀ e ∈ [(Value.str Name.x, x), (.str Name.y, y)], st.Composable (z.below .point) n e.2)
    (he : Extends st st₁) :
    Opens st₁ (layOpen (fuel + 1) (.ref r)) fun v' st₂ => ∃ place es', v' = .ref place ∧
      st₂.node place = .table es' ∧ Shows st (n + 1) (.ref r) st₂ v' := by
  have hes : [(Value.str Name.x, x), (.str Name.y, y)]
      = [(Name.x, x), (Name.y, y)].map fun (name, v) => (.str name, v) := rfl
  exact opens_declared ih (z := z.below .point) rfl hf (view_point hn) hes (by rw [hn]; rfl)
    (fun st₁ he => lookup_point hn he) h he

theorem opens_undeclared {kind : Kind} {attributes : Attributes}
    (hn : st.node r = .record kind attributes) (hkind : kind.declared? = none)
    (h : st.Composable ⟨false, true⟩ n (.ref r)) (hsize : n ≤ st.size) (he : Extends st st₁) :
    Opens st₁ (layOpen (fuel + 1) (.ref r)) fun v' st₂ => Shows st n (.ref r) st₂ v' := by
  have hself := h.like_self he
  obtain ⟨v', st', hcopy, he', hlike⟩ :=
    (hself.composable h).exists_copy rfl (Nat.le_trans hsize he.size_le)
  refine ⟨v', st', ?_, he', fun st₂ he₂ => ⟨?_, ?_⟩⟩
  · rw [run_layOpen_undeclared (he.node_eq_of_ne hn Node.noConfusion) hkind]
    exact hcopy
  · exact ((hlike st₂ he₂).composable (hself.composable h)).free
  · exact ((hlike st₂ he₂).composed_eq (hself.composable h)).trans (hself.composed_eq h)

theorem opensAt (st : Store) (hsize : n ≤ st.size) : st.OpensAt n := by
  induction n with
  | zero =>
    intro z v fuel st₁ _ hv hf _
    obtain ⟨fuel, rfl⟩ := Nat.exists_eq_succ_of_ne_zero (Nat.ne_of_gt hf)
    cases hv with
    | scalar h =>
      rw [layOpen_scalar h]
      exact opens_pure fun _ _ => ⟨.scalar h, by rw [composed_scalar h, composed_scalar h]⟩
  | succ n ih =>
    intro z v fuel st₁ hz hv hf he
    have ih : st.OpensAt n := ih (Nat.le_of_succ_le hsize)
    obtain ⟨fuel, rfl⟩ := Nat.exists_eq_succ_of_ne_zero (Nat.ne_of_gt (Nat.zero_lt_of_lt hf))
    have hf : n < fuel := Nat.lt_of_succ_lt_succ hf
    cases hv with
    | scalar h =>
      rw [layOpen_scalar h]
      exact opens_pure fun _ _ => ⟨.scalar h, by rw [composed_scalar h, composed_scalar h]⟩
    | @items _ _ r vs hv h =>
      have hvs := opens_mapM (fun w hw st₁ he => ih hz (h w hw) hf he) he
      rcases node_of_view_items hv with hn | hn
      · rw [Opens, run_layOpen_list (he.node_eq_of_ne hn Node.noConfusion)]
        refine hvs.bind fun vs' st₂ _ hvs' => opens_place Node.noConfusion ?_
        exact fun place st₃ he₃ hn' => shows_items hv (view_list hn') (hvs' st₃ he₃)
      · rw [Opens, run_layOpen_tuple (he.node_eq_of_ne hn Node.noConfusion)]
        refine hvs.bind fun vs' st₂ _ hvs' => opens_place Node.noConfusion ?_
        exact fun place st₃ he₃ hn' => shows_items hv (view_tuple hn') (hvs' st₃ he₃)
    | @entries _ _ r f es hv hs hk hsuits h =>
      rcases node_of_view_entries hv with ⟨rfl, hn⟩ | ⟨kind, attributes, rfl, hn, rfl⟩ |
        ⟨x, y, rfl, hn, rfl⟩
      · exact opens_table ih hz hf hn hk h he
      · cases hkind : kind.declared? with
        | none =>
          refine opens_undeclared hn hkind (.entries hv hs hk ?_ ?_) hsize he
          · exact ⟨fun h => absurd h Bool.false_ne_true, fun _ => hsuits.2 (Or.inr ⟨hz, hkind⟩)⟩
          · rw [Zone.below_undeclared hkind (Or.inl hz)] at h
            rwa [Zone.below_undeclared hkind (Or.inr rfl)]
        | some names =>
          obtain ⟨fields, rfl, hfields⟩ := exists_fields_of_map_fst_eq (hsuits.1 hz names hkind)
          have hz' : (z.below (.record kind)).opened = true := by rwa [Zone.below_declared hkind]
          have hopens := opens_declared ih hz' hf hv hfields (by rw [hn]; exact hkind)
            (fun st₁ he => lookup_exact hn hs hkind hfields he) h he
          exact hopens.imp fun _ _ ⟨_, _, _, _, hshows⟩ => hshows
      · exact (opens_point ih hf hn h he).imp fun _ _ ⟨_, _, _, _, hshows⟩ => hshows

/-- **A point is laid open as a table that shows it.** -/
theorem exists_opened_point {x y : Value} (hn : st.node r = .point (some x) (some y))
    (h : ∀ e ∈ [(Value.str Name.x, x), (.str Name.y, y)], st.Composable (z.below .point) n e.2)
    (hsize : n < st.size) :
    ∃ place es st', st.opened (.ref r) = .ok (.ref place, st') ∧ Extends st st' ∧
      st'.node place = .table es ∧ Shows st (n + 1) (.ref r) st' (.ref place) := by
  obtain ⟨_, st', hrun, he, hpoint⟩ :=
    opens_point (st.opensAt (Nat.le_of_lt hsize)) hsize hn h (.refl st)
  obtain ⟨place, es, rfl, hnode, hshows⟩ := hpoint st' (.refl st')
  exact ⟨place, es, st', hrun, he, hnode, hshows⟩

end SelectorForge.Store
