import SelectorForge.Proofs.Store.Composed

/-!
# Copies show what the originals show

While a value is copied, the copies of the containers and objects on the way to it stand in the
store already but are not filled yet. What is known of all other copies does not depend on what
becomes of these busy places, so it is known in the end:

* `Store.Agrees`             two stores that differ at busy places at most;
* `Store.Firm`               what is true whatever becomes of the busy places;
* `Store.Ready`              the copies that are remembered are begun, or they show the originals;
* `Store.Yields`             a step of copying succeeds, keeps all this and answers what it should;
* `Store.copiesAt`           one step for each kind of node, then values of any depth;
* `Composable.exists_copy`   a composable value has a copy that shows what it shows.
-/

namespace SelectorForge.Store

open Copying

variable {st st' : Store} {c : Copies} {place : Ref} {begun busy : List Ref} {n : Nat} {z : Zone}

/-! ### stores with busy places -/

structure Agrees (busy : List Ref) (st st' : Store) : Prop where
  size_le : st.size ≤ st'.size
  node_eq : ∀ r < st.size, r ∉ busy → st'.node r = st.node r

theorem Agrees.refl (busy : List Ref) (st : Store) : Agrees busy st st :=
  ⟨Nat.le_refl _, fun _ _ _ => rfl⟩

theorem Agrees.trans {st₁ st₂ st₃ : Store} (h : Agrees busy st₁ st₂) (h' : Agrees busy st₂ st₃) :
    Agrees busy st₁ st₃ where
  size_le := Nat.le_trans h.size_le h'.size_le
  node_eq q hq hbusy := by
    rw [h'.node_eq q (Nat.lt_of_lt_of_le hq h.size_le) hbusy, h.node_eq q hq hbusy]

theorem Agrees.mono {busy' : List Ref} (h : Agrees busy st st') (hb : busy ⊆ busy') :
    Agrees busy' st st' :=
  ⟨h.size_le, fun r hr hbusy => h.node_eq r hr fun hmem => hbusy (hb hmem)⟩

theorem Extends.agrees (h : Extends st st') (busy : List Ref) : Agrees busy st st' :=
  ⟨h.size_le, fun q hq _ => h.node_eq q hq⟩

theorem agrees_write (st : Store) (place : Ref) (n : Node) :
    Agrees [place] st (st.write place n) where
  size_le := Nat.le_of_eq (st.size_write place n).symm
  node_eq _ _ hq := st.node_write_of_ne n fun h => hq (List.mem_singleton.mpr h.symm)

/-- What is true of a store and stays so, whatever becomes of the busy places. -/
def Firm (busy : List Ref) (st : Store) (P : Store → Prop) : Prop :=
  ∀ st', Agrees busy st st' → P st'

variable {P Q : Store → Prop}

theorem Firm.here (h : Firm busy st P) : P st := h st (.refl busy st)

theorem Firm.imp (h : Firm busy st P) (hPQ : ∀ st, P st → Q st) : Firm busy st Q :=
  fun st' ha => hPQ st' (h st' ha)

theorem Firm.later (h : Firm busy st P) (ha : Agrees busy st st') : Firm busy st' P :=
  fun st₂ ha' => h st₂ (ha.trans ha')

theorem Firm.of_subset {busy' : List Ref} (h : Firm busy' st P) (hb : busy ⊆ busy') :
    Firm busy st P :=
  fun st' ha => h st' (ha.mono hb)

theorem Agrees.before {st₁ st₂ : Store} (h : Agrees (place :: busy) st₁ st₂)
    (hplace : st.size ≤ place) (ha : Extends st st₁) : Agrees busy st st₂ where
  size_le := Nat.le_trans ha.size_le h.size_le
  node_eq q hq hbusy := by
    have hne : q ≠ place := fun heq => Nat.not_lt.mpr hplace (heq ▸ hq)
    rw [h.node_eq q (Nat.lt_of_lt_of_le hq ha.size_le)
      (List.not_mem_cons_of_ne_of_not_mem hne hbusy), ha.node_eq q hq]

/-- A new place can become busy. -/
theorem Firm.behind (h : Firm busy st P) (hplace : st.size ≤ place) (ha : Extends st st') :
    Firm (place :: busy) st' P :=
  fun st₂ ha' => h st₂ (ha'.before hplace ha)

theorem firm_node {m : Node} (hn : st.node place = m) (hlt : place < st.size)
    (hbusy : place ∉ busy) : Firm busy st fun st' => st'.node place = m :=
  fun _ ha => (ha.node_eq place hlt hbusy).trans hn

/-! ### what is remembered -/

/-- Some depth is deep enough for what stands at a place, and this one is not. -/
def Away (st : Store) (n : Nat) (p : Ref) : Prop :=
  (∃ m, st.Composable .free m (.ref p)) ∧ ¬ st.Composable .free n (.ref p)

theorem Away.mono {m : Nat} {p : Ref} (h : st.Away m p) (hn : n ≤ m) : st.Away n p :=
  ⟨h.1, fun hp => h.2 (hp.mono hn).1⟩

/-- The copies have been begun on the way to the current value, or they show what the originals in
the first store show. -/
structure Ready (st : Store) (begun busy : List Ref) (c : Copies) : Prop where
  grown : Extends st c.store
  inside : ∀ b ∈ busy, b < c.store.size
  made : ∀ r v, c.made.lookup r = some v →
    r ∈ begun ∨ Firm busy c.store fun st' => st.Like st' (.ref r) v

/-- Further copies, and changes of some places. -/
structure Grows (places : List Ref) (c c' : Copies) : Prop where
  agrees : Agrees places c.store c'.store
  made : ∀ r v, c.made.lookup r = some v → c'.made.lookup r = some v

theorem Grows.refl (places : List Ref) (c : Copies) : Grows places c c :=
  ⟨.refl places c.store, fun _ _ h => h⟩

theorem Grows.trans {places : List Ref} {c₁ c₂ c₃ : Copies} (h : Grows places c₁ c₂)
    (h' : Grows places c₂ c₃) : Grows places c₁ c₃ :=
  ⟨h.agrees.trans h'.agrees, fun r v hv => h'.made r v (h.made r v hv)⟩

theorem Grows.mono {places places' : List Ref} {c c' : Copies} (h : Grows places c c')
    (hsub : places ⊆ places') : Grows places' c c' :=
  ⟨h.agrees.mono hsub, h.made⟩

/-- A step of copying succeeds, and what is asked of its answer stays true. -/
def Yields {α : Type} (st : Store) (begun busy : List Ref) (c : Copies) (step : Copying α)
    (R : α → Store → Prop) : Prop :=
  ∃ a c', step.run c = .ok (a, c') ∧ Grows [] c c' ∧ Ready st begun busy c' ∧
    Firm busy c'.store (R a)

variable {α β γ : Type}

theorem run_bind_ok {step : Copying α} {a : α} {c' : Copies} (h : step.run c = .ok (a, c'))
    (next : α → Copying β) : (step >>= next).run c = (next a).run c' := by
  rw [StateT.run_bind, h]
  rfl

theorem yields_pure {a : α} {R : α → Store → Prop} (hc : Ready st begun busy c)
    (h : Firm busy c.store (R a)) : Yields st begun busy c (pure a) R :=
  ⟨a, c, rfl, .refl [] c, hc, h⟩

theorem Yields.imp {step : Copying α} {R S : α → Store → Prop}
    (h : Yields st begun busy c step R) (hRS : ∀ a st', R a st' → S a st') :
    Yields st begun busy c step S := by
  obtain ⟨a, c', hrun, hgrows, hc', hR⟩ := h
  exact ⟨a, c', hrun, hgrows, hc', hR.imp fun st' => hRS a st'⟩

theorem Yields.bind {step : Copying α} {next : α → Copying β} {R : α → Store → Prop}
    {S : β → Store → Prop} (h : Yields st begun busy c step R)
    (hnext : ∀ a c', Grows [] c c' → Ready st begun busy c' → Firm busy c'.store (R a) →
      Yields st begun busy c' (next a) S) : Yields st begun busy c (step >>= next) S := by
  obtain ⟨a, c₁, hrun, hgrows, hready, hR⟩ := h
  obtain ⟨b, c₂, hrun', hgrows', hready', hS⟩ := hnext a c₁ hgrows hready hR
  exact ⟨b, c₂, (run_bind_ok hrun next).trans hrun', hgrows.trans hgrows', hready', hS⟩

theorem Grows.firm {c' : Copies} (h : Grows [] c c') (hP : Firm busy c.store P) :
    Firm busy c'.store P :=
  hP.later (h.agrees.mono (List.nil_subset busy))

theorem yields_mapM {f : α → Copying β} {R : α → β → Store → Prop} {xs : List α}
    (hf : ∀ x ∈ xs, ∀ c, Ready st begun busy c → Yields st begun busy c (f x) (R x))
    (hc : Ready st begun busy c) :
    Yields st begun busy c (xs.mapM f)
      fun ys st' => List.Forall₂ (fun x y => R x y st') xs ys := by
  induction xs generalizing c with
  | nil => exact yields_pure hc fun _ _ => .nil
  | cons x xs ih =>
    obtain ⟨hfirst, hrest⟩ := List.forall_mem_cons.mp hf
    rw [List.mapM_cons]
    refine (hfirst c hc).bind fun y c₁ _ hc₁ hy => ?_
    refine (ih hrest hc₁).bind fun ys c₂ hgrows hc₂ hys => ?_
    exact yields_pure hc₂ fun st' ha => .cons (hgrows.firm hy st' ha) (hys st' ha)

/-! ### places that are filled -/

variable {r : Ref}

theorem run_reserve (r : Ref) (m : Node) (c : Copies) : (reserve r m).run c
    = .ok (c.store.size, ⟨(c.store.alloc m).2, (r, .ref c.store.size) :: c.made⟩) := rfl

theorem run_fill (r : Ref) (m : Node) (c : Copies) :
    (fill r m).run c = .ok ((), { c with store := c.store.write r m }) := rfl

theorem Ready.enter (h : Ready st begun busy c) (r : Ref) (m : Node) :
    Ready st (r :: begun) (c.store.size :: busy)
      ⟨(c.store.alloc m).2, (r, .ref c.store.size) :: c.made⟩ where
  grown := h.grown.trans (extends_alloc c.store m)
  inside := List.forall_mem_cons.mpr ⟨c.store.size_lt_alloc m, fun b hb =>
    Nat.lt_trans (h.inside b hb) (c.store.size_lt_alloc m)⟩
  made q v hq := by
    rw [List.lookup_cons] at hq
    by_cases hqr : q = r
    · exact Or.inl (hqr ▸ List.mem_cons_self)
    · rw [beq_false_of_ne hqr] at hq
      exact (h.made q v hq).imp (List.mem_cons_of_mem r) fun hfirm =>
        hfirm.behind (Nat.le_refl _) (extends_alloc c.store m)

theorem Ready.leave (h : Ready st (r :: begun) (place :: busy) c)
    (hr : c.made.lookup r = some (.ref place))
    (hlike : Firm busy c.store fun st' => st.Like st' (.ref r) (.ref place)) :
    Ready st begun busy c where
  grown := h.grown
  inside := (List.forall_mem_cons.mp h.inside).2
  made q v hq := by
    rcases h.made q v hq with hmem | hfirm
    · rcases List.mem_cons.mp hmem with rfl | hmem
      · cases hr.symm.trans hq
        exact Or.inr hlike
      · exact Or.inl hmem
    · exact Or.inr (hfirm.of_subset (List.subset_cons_self place busy))

theorem Ready.write (h : Ready st begun (place :: busy) c) (hplace : st.size ≤ place) (m : Node) :
    Ready st begun (place :: busy) { c with store := c.store.write place m } where
  grown := by
    have hagrees := (h.grown.agrees [place]).trans (agrees_write c.store place m)
    refine ⟨hagrees.size_le, fun q hq => hagrees.node_eq q hq fun hmem => ?_⟩
    exact Nat.not_lt.mpr hplace (List.mem_singleton.mp hmem ▸ hq)
  inside b hb := by
    rw [size_write]
    exact h.inside b hb
  made q v hq := (h.made q v hq).imp_right fun hfirm => hfirm.later
    ((agrees_write c.store place m).mono (List.cons_subset_cons place (List.nil_subset busy)))

/-- A node is reserved, its parts are copied, and then it shows what the original shows. -/
theorem yields_reserved {m : Node} {inner : Ref → Copying Unit} (hc : Ready st begun busy c)
    (hr : c.made.lookup r = none)
    (hinner : ∀ place c₁, Extends c.store c₁.store → c.store.size ≤ place → place ∉ busy →
      c₁.store.node place = m → Ready st (r :: begun) (place :: busy) c₁ →
      ∃ c₂, (inner place).run c₁ = .ok ((), c₂) ∧ Grows [place] c₁ c₂ ∧
        Ready st (r :: begun) (place :: busy) c₂ ∧
        Firm busy c₂.store fun st' => st.Like st' (.ref r) (.ref place)) :
    Yields st begun busy c (do let place ← reserve r m; inner place; pure (.ref place))
      fun v st' => st.Like st' (.ref r) v := by
  have hnew : c.store.size ∉ busy := fun hmem => Nat.lt_irrefl _ (hc.inside _ hmem)
  have halloc := extends_alloc c.store m
  obtain ⟨c₂, hrun, hgrows, hready, hlike⟩ := hinner c.store.size _ halloc (Nat.le_refl _) hnew
    (c.store.node_alloc_self m) (hc.enter r m)
  have hlookup : ((r, Value.ref c.store.size) :: c.made).lookup r = some (.ref c.store.size) := by
    rw [List.lookup_cons, beq_self_eq_true]
  refine ⟨.ref c.store.size, c₂, ?_, ⟨⟨?_, fun q hq _ => ?_⟩, fun q v hq => ?_⟩,
    hready.leave (hgrows.made r _ hlookup) hlike, hlike⟩
  · rw [run_bind_ok (run_reserve r m c), run_bind_ok hrun]
    rfl
  · exact Nat.le_trans halloc.size_le hgrows.agrees.size_le
  · rw [hgrows.agrees.node_eq q (Nat.lt_of_lt_of_le hq halloc.size_le) fun hmem =>
      Nat.ne_of_lt hq (List.mem_singleton.mp hmem), halloc.node_eq q hq]
  · refine hgrows.made q v ?_
    have hqr : q ≠ r := fun heq => by
      rw [heq, hr] at hq
      cases hq
    rw [List.lookup_cons, beq_false_of_ne hqr]
    exact hq

/-- Copies of one thing after the other go to the end of the list that a busy node is made of. -/
theorem exists_forM {mk : List β → Node} {copyOne : α → Copying β} {add : β → Copying Unit}
    {R : α → β → Store → Prop} {xs : List α} {ys : List β}
    (hadd : ∀ ys y c, c.store.node place = mk ys →
      (add y).run c = .ok ((), { c with store := c.store.write place (mk (ys ++ [y])) }))
    (hone : ∀ x ∈ xs, ∀ c, Ready st begun (place :: busy) c →
      Yields st begun (place :: busy) c (copyOne x) (R x))
    (hc : Ready st begun (place :: busy) c) (hplace : st.size ≤ place)
    (hys : c.store.node place = mk ys) :
    ∃ c' zs, (xs.forM fun x => do add (← copyOne x)).run c = .ok ((), c') ∧ Grows [place] c c' ∧
      Ready st begun (place :: busy) c' ∧ c'.store.node place = mk (ys ++ zs) ∧
      Firm (place :: busy) c'.store fun st' => List.Forall₂ (fun x y => R x y st') xs zs := by
  induction xs generalizing c ys with
  | nil =>
    refine ⟨c, [], rfl, .refl [place] c, hc, ?_, fun _ _ => .nil⟩
    rw [List.append_nil]
    exact hys
  | cons x xs ih =>
    obtain ⟨hfirst, hrest⟩ := List.forall_mem_cons.mp hone
    obtain ⟨y, c₁, hrun, hgrows, hc₁, hy⟩ := hfirst c hc
    have hlt := hc.inside place List.mem_cons_self
    have hlt₁ := hc₁.inside place List.mem_cons_self
    have hnode : c₁.store.node place = mk ys :=
      (hgrows.agrees.node_eq place hlt List.not_mem_nil).trans hys
    have hwrite := agrees_write c₁.store place (mk (ys ++ [y]))
    obtain ⟨c₂, zs, hrun', hgrows', hc₂, hzs, hlist⟩ :=
      ih hrest (hc₁.write hplace (mk (ys ++ [y]))) (c₁.store.node_write_self _ hlt₁)
    refine ⟨c₂, y :: zs, ?_, (hgrows.mono (List.nil_subset _)).trans
      ⟨hwrite.trans hgrows'.agrees, hgrows'.made⟩, hc₂, ?_, fun st' ha => .cons ?_ (hlist st' ha)⟩
    · show ((copyOne x >>= add) >>= fun _ => xs.forM fun x => do add (← copyOne x)).run c = _
      rw [bind_assoc, run_bind_ok hrun, run_bind_ok (hadd ys y c₁ hnode)]
      exact hrun'
    · rw [hzs, List.append_assoc]
      rfl
    · have hagrees := (hwrite.trans hgrows'.agrees).mono
        (List.cons_subset_cons place (List.nil_subset busy))
      exact (hy.later hagrees) st' ha

/-- What follows from what a place holds and from what is true whatever becomes of it, is true as
soon as the place is not busy any more. -/
theorem firm_of_node {m : Node} (hn : st'.node place = m) (hlt : place < st'.size)
    (hbusy : place ∉ busy)
    (h : ∀ st₂, Agrees (place :: busy) st' st₂ → st₂.node place = m → P st₂) : Firm busy st' P :=
  fun st₂ ha => h st₂ (ha.mono (List.subset_cons_self place busy))
    ((ha.node_eq place hlt hbusy).trans hn)

/-- A busy node is filled with what has been copied for it. -/
theorem exists_fill {step : Copying α} {node : α → Node} {R : α → Store → Prop}
    (h : Yields st (r :: begun) (place :: busy) c step R) (hplace : st.size ≤ place)
    (hbusy : place ∉ busy)
    (hlike : ∀ a st', R a st' → st'.node place = node a → st.Like st' (.ref r) (.ref place)) :
    ∃ c', (do fill place (node (← step)) : Copying Unit).run c = .ok ((), c') ∧
      Grows [place] c c' ∧ Ready st (r :: begun) (place :: busy) c' ∧
      Firm busy c'.store fun st' => st.Like st' (.ref r) (.ref place) := by
  obtain ⟨a, c₁, hrun, hgrows, hc₁, hR⟩ := h
  have hwrite := agrees_write c₁.store place (node a)
  refine ⟨_, (run_bind_ok hrun _).trans (run_fill place (node a) c₁),
    (hgrows.mono (List.nil_subset _)).trans ⟨hwrite, fun _ _ h => h⟩, hc₁.write hplace _, ?_⟩
  have hlt := hc₁.inside place List.mem_cons_self
  refine firm_of_node (c₁.store.node_write_self _ hlt) (by rwa [size_write]) hbusy ?_
  intro st' ha hnode
  have hagrees := hwrite.mono (List.cons_subset_cons place (List.nil_subset busy))
  exact hlike a st' (hR st' (hagrees.trans ha)) hnode

theorem Ready.alloc (h : Ready st begun busy c) (m : Node) :
    Ready st begun busy { c with store := (c.store.alloc m).2 } where
  grown := h.grown.trans (extends_alloc c.store m)
  inside b hb := Nat.lt_trans (h.inside b hb) (c.store.size_lt_alloc m)
  made q v hq := (h.made q v hq).imp_right fun hfirm =>
    hfirm.later ((extends_alloc c.store m).agrees busy)

theorem eq_map_of_mapM_named {es : List (Value × Value)} {fields : Fields Value}
    (h : (es.mapM fun (key, value) => match key with
      | .str name => some (name, value)
      | _ => none) = some fields) :
    es = fields.map fun (name, value) => (.str name, value) := by
  induction es generalizing fields with
  | nil =>
    cases h
    rfl
  | cons e es ih =>
    obtain ⟨key, value⟩ := e
    rw [List.mapM_cons] at h
    obtain ⟨field, hfield, h⟩ := Option.bind_eq_some_iff.mp h
    obtain ⟨rest, hrest, h⟩ := Option.bind_eq_some_iff.mp h
    cases h
    cases key <;> cases hfield
    rw [List.map_cons, ← ih hrest]

theorem yields_finish {m : Node} (hc : Ready st begun busy c) (hr : r ∉ begun)
    (hlike : ∀ place st', Agrees busy c.store st' → st'.node place = m →
      st.Like st' (.ref r) (.ref place)) :
    Yields st begun busy c (finish r m) fun v st' => st.Like st' (.ref r) v := by
  cases hmade : c.made.lookup r with
  | some v =>
    have hrun : (finish r m).run c = .ok (v, c) := by
      unfold finish
      simp only [StateT.run_bind, StateT.run_get, pure_bind, hmade]
      rfl
    exact ⟨v, c, hrun, .refl [] c, hc, (hc.made r v hmade).resolve_left hr⟩
  | none =>
    have hrun : (finish r m).run c
        = (do let place ← reserve r m; pure (); pure (.ref place) : Copying Value).run c := by
      unfold finish
      simp only [StateT.run_bind, StateT.run_get, pure_bind, hmade]
    rw [Yields, hrun]
    refine yields_reserved hc hmade fun place c₁ hgrown hplace hbusy hnode hc₁ =>
      ⟨c₁, rfl, .refl [place] c₁, hc₁, ?_⟩
    refine firm_of_node hnode (hc₁.inside place List.mem_cons_self) hbusy fun st' ha hnode => ?_
    exact hlike place st' (ha.before hplace hgrown) hnode

/-- Attributes with these entries, in a table if need be. -/
theorem yields_keep (hc : Ready st begun busy c) (es : List (Value × Value)) :
    Yields st begun busy c (keep es) fun attributes st' => st'.entries attributes = es ∧
      ∀ table, attributes = .shared table → ∃ es, st'.node table = .table es := by
  unfold keep
  dsimp only
  split
  · next fields hfields =>
    refine yields_pure hc fun st' _ => ⟨(eq_map_of_mapM_named hfields).symm, fun table h => ?_⟩
    cases h
  · have halloc := extends_alloc c.store (.table es)
    refine ⟨.shared c.store.size, _, rfl, ⟨halloc.agrees [], fun _ _ h => h⟩,
      hc.alloc (.table es), ?_⟩
    have hnew : c.store.size ∉ busy := fun hmem => Nat.lt_irrefl _ (hc.inside _ hmem)
    refine (firm_node (c.store.node_alloc_self _) (c.store.size_lt_alloc _) hnew).imp ?_
    intro st' hnode
    refine ⟨by rw [entries_shared, tableEntries, hnode], fun table h => ?_⟩
    cases h
    exact ⟨es, hnode⟩

/-! ### copies of nodes -/

/-- The copies of the entries of a record. -/
def copyEntries (fuel : Nat) : Attributes → Copying (List (Value × Value))
  | .own fields => fields.mapM fun (name, value) => do
    pure (.str name, ← copyValue fuel value)
  | .shared table => do
    match ← copyValue fuel (.ref table) with
    | .ref copy => ask fun st => .ok (st.tableEntries copy)
    | _ => pure []

theorem run_ask (question : Store → α) (c : Copies) :
    (ask fun st => .ok (question st)).run c = pure (question c.store, c) := rfl

theorem copyValue_scalar {v : Value} (h : ∀ r, v ≠ .ref r) (fuel : Nat) :
    copyValue (fuel + 1) v = pure v := by
  cases v with
  | ref r => exact absurd rfl (h r)
  | null | bool | int | float | str | octets | stage | combinator => rfl

theorem run_made {v : Value} (h : c.made.lookup r = some v) (fuel : Nat) :
    (copyValue (fuel + 1) (.ref r)).run c = .ok (v, c) := by
  unfold copyValue
  simp only [StateT.run_bind, StateT.run_get, pure_bind, h]
  rfl

section
variable (h : c.made.lookup r = none) (fuel : Nat)
include h

theorem run_list {vs : List Value} (hn : c.store.node r = .list vs) :
    (copyValue (fuel + 1) (.ref r)).run c = (do
      let place ← reserve r (.list [])
      vs.forM fun v => do addItem place (← copyValue fuel v)
      pure (.ref place) : Copying Value).run c := by
  conv_lhs => unfold copyValue
  simp only [StateT.run_bind, StateT.run_get, pure_bind, h, run_ask, hn]

theorem run_tuple {vs : List Value} (hn : c.store.node r = .tuple vs) :
    (copyValue (fuel + 1) (.ref r)).run c = (do
      finish r (.tuple (← vs.mapM (copyValue fuel))) : Copying Value).run c := by
  conv_lhs => unfold copyValue
  simp only [StateT.run_bind, StateT.run_get, pure_bind, h, run_ask, hn]

theorem run_table {es : List (Value × Value)} (hn : c.store.node r = .table es) :
    (copyValue (fuel + 1) (.ref r)).run c = (do
      let place ← reserve r (.table [])
      es.forM fun e => do
        let copied ← (do
          let value ← copyValue fuel e.2
          pure (← copyValue fuel e.1, value))
        addEntry place copied.1 copied.2
      pure (.ref place) : Copying Value).run c := by
  conv_lhs => unfold copyValue
  simp only [StateT.run_bind, StateT.run_get, pure_bind, h, run_ask, hn, bind_assoc]

theorem run_point {x y : Value} (hn : c.store.node r = .point (some x) (some y)) :
    (copyValue (fuel + 1) (.ref r)).run c = (do
      let place ← reserve r (.point none none)
      (do
        let copied ← (do
          let x ← copyValue fuel x
          pure (x, ← copyValue fuel y))
        fill place (.point (some copied.1) (some copied.2)))
      pure (.ref place) : Copying Value).run c := by
  conv_lhs => unfold copyValue
  simp only [StateT.run_bind, StateT.run_get, pure_bind, h, run_ask, hn, Option.mapM_some,
    map_eq_pure_bind, bind_assoc]

theorem run_record {kind : Kind} {attributes : Attributes}
    (hn : c.store.node r = .record kind attributes) (hkind : ∀ k core, kind ≠ .error k core)
    (hcheck : c.store.checkCopyable kind (c.store.fields attributes) = .ok ()) :
    (copyValue (fuel + 1) (.ref r)).run c = (do
      let place ← reserve r (.record kind (.own []))
      (do
        let attributes ← (do keep (← copyEntries fuel attributes))
        fill place (.record kind attributes))
      pure (.ref place) : Copying Value).run c := by
  have hask : (ask fun st => st.checkCopyable kind (st.fields attributes)).run c
      = pure ((), c) := by
    show (liftM (c.store.checkCopyable kind (c.store.fields attributes)) : Copying Unit).run c = _
    rw [hcheck]
    rfl
  conv_lhs => unfold copyValue
  simp only [StateT.run_bind, StateT.run_get, pure_bind, h, run_ask, hn, hask, bind_assoc]
  cases kind with
  | error k core => exact absurd rfl (hkind k core)
  | plain | fixed | rectangle | config | combination | selector | builder =>
    cases attributes <;> rfl

end

/-! ### values of a depth -/

/-- Values up to a depth are copied well, with whatever has been begun around them. -/
def CopiesAt (st : Store) (n : Nat) : Prop :=
  ∀ {z : Zone} {v : Value} {fuel : Nat} {begun busy : List Ref} {c : Copies}, z.copied = true →
    st.Composable z n v → (∀ p ∈ begun, st.Away n p) → 2 * n < fuel → Ready st begun busy c →
    Yields st begun busy c (copyValue fuel v) fun v' st' => st.Like st' v v'

section
variable {fuel : Nat} (ih : st.CopiesAt n) (hz : z.copied = true)
  (haway : ∀ p ∈ begun, st.Away n p) (hf : 2 * n < fuel) (hc : Ready st begun busy c)

include ih hz haway hf hc

theorem yields_list {vs : List Value} (hn : st.node r = .list vs)
    (h : ∀ w ∈ vs, st.Composable z n w) (hr : st.Away n r) (hmade : c.made.lookup r = none) :
    Yields st begun busy c (copyValue (fuel + 1) (.ref r)) fun v st' => st.Like st' (.ref r) v := by
  rw [Yields, run_list hmade fuel (hc.grown.node_eq_of_ne hn Node.noConfusion)]
  refine yields_reserved hc hmade fun place c₁ _ hplace hbusy hnode hc₁ => ?_
  have hadd : ∀ ys y (c : Copies), c.store.node place = .list ys →
      (addItem place y).run c
        = .ok ((), { c with store := c.store.write place (.list (ys ++ [y])) }) := by
    intro ys y c hys
    show (fill place (.list (listItems c.store place ++ [y]))).run c = _
    rw [run_fill, listItems, hys]
  obtain ⟨c₂, vs', hrun, hgrows, hc₂, hnode₂, hvs⟩ := exists_forM hadd
    (fun w hw c hc => ih hz (h w hw) (List.forall_mem_cons.mpr ⟨hr, haway⟩) hf hc) hc₁
    (Nat.le_trans hc.grown.size_le hplace) hnode
  refine ⟨c₂, hrun, hgrows, hc₂, ?_⟩
  refine firm_of_node hnode₂ (hc₂.inside place List.mem_cons_self) hbusy fun st' ha hnode => ?_
  exact like_items (view_list hn) (view_list hnode) (hvs st' ha)

theorem yields_tuple {vs : List Value} (hn : st.node r = .tuple vs)
    (h : ∀ w ∈ vs, st.Composable z n w) (hr : r ∉ begun) (hmade : c.made.lookup r = none) :
    Yields st begun busy c (copyValue (fuel + 1) (.ref r)) fun v st' => st.Like st' (.ref r) v := by
  rw [Yields, run_tuple hmade fuel (hc.grown.node_eq_of_ne hn Node.noConfusion)]
  refine (yields_mapM (fun w hw c hc => ih hz (h w hw) haway hf hc) hc).bind ?_
  intro vs' c₁ _ hc₁ hvs
  exact yields_finish hc₁ hr fun place st' ha hnode =>
    like_items (view_tuple hn) (view_tuple hnode) (hvs st' ha)

theorem yields_table {es : List (Value × Value)} (hn : st.node r = .table es)
    (hk : ∀ e ∈ es, ∀ q, e.1 ≠ .ref q) (h : ∀ e ∈ es, st.Composable z n e.2) (hr : st.Away n r)
    (hmade : c.made.lookup r = none) :
    Yields st begun busy c (copyValue (fuel + 1) (.ref r)) fun v st' => st.Like st' (.ref r) v := by
  rw [Yields, run_table hmade fuel (hc.grown.node_eq_of_ne hn Node.noConfusion)]
  refine yields_reserved hc hmade fun place c₁ _ hplace hbusy hnode hc₁ => ?_
  have hadd : ∀ ys (y : Value × Value) (c : Copies), c.store.node place = .table ys →
      (addEntry place y.1 y.2).run c
        = .ok ((), { c with store := c.store.write place (.table (ys ++ [y])) }) := by
    intro ys y c hys
    show (fill place (.table (c.store.tableEntries place ++ [y]))).run c = _
    rw [run_fill, tableEntries, hys]
  have hone : ∀ e ∈ es, ∀ c, Ready st (r :: begun) (place :: busy) c →
      Yields st (r :: begun) (place :: busy) c (do
        let value ← copyValue fuel e.2
        pure (← copyValue fuel e.1, value))
        fun e' st' => e'.1 = e.1 ∧ st.Like st' e.2 e'.2 := by
    intro e he c hc
    refine (ih hz (h e he) (List.forall_mem_cons.mpr ⟨hr, haway⟩) hf hc).bind ?_
    intro value c₁ _ hc₁ hvalue
    obtain ⟨fuel, rfl⟩ := Nat.exists_eq_succ_of_ne_zero (Nat.ne_of_gt (Nat.zero_lt_of_lt hf))
    rw [copyValue_scalar (hk e he), pure_bind]
    exact yields_pure hc₁ fun st' ha => ⟨rfl, hvalue st' ha⟩
  obtain ⟨c₂, es', hrun, hgrows, hc₂, hnode₂, hes⟩ := exists_forM hadd hone hc₁
    (Nat.le_trans hc.grown.size_le hplace) hnode
  refine ⟨c₂, hrun, hgrows, hc₂, ?_⟩
  refine firm_of_node hnode₂ (hc₂.inside place List.mem_cons_self) hbusy fun st' ha hnode => ?_
  exact like_entries (view_table hn) (view_table hnode)
    (tabled_of_view (view_table hn) fun _ => Form.noConfusion)
    (tabled_of_view (view_table hnode) fun _ => Form.noConfusion) (hes st' ha)

theorem yields_point {x y : Value} (hn : st.node r = .point (some x) (some y))
    (hx : st.Composable z n x) (hy : st.Composable z n y) (hr : st.Away n r)
    (hmade : c.made.lookup r = none) :
    Yields st begun busy c (copyValue (fuel + 1) (.ref r)) fun v st' => st.Like st' (.ref r) v := by
  rw [Yields, run_point hmade fuel (hc.grown.node_eq_of_ne hn Node.noConfusion)]
  refine yields_reserved hc hmade fun place c₁ _ hplace hbusy _ hc₁ => ?_
  have haway' := List.forall_mem_cons.mpr ⟨hr, haway⟩
  have hparts : Yields st (r :: begun) (place :: busy) c₁
      (do let x ← copyValue fuel x; pure (x, ← copyValue fuel y))
      fun p st' => st.Like st' x p.1 ∧ st.Like st' y p.2 := by
    refine (ih hz hx haway' hf hc₁).bind fun x' c₂ _ hc₂ hx' => ?_
    refine (ih hz hy haway' hf hc₂).bind fun y' c₃ hgrows hc₃ hy' => ?_
    exact yields_pure hc₃ fun st' ha => ⟨hgrows.firm hx' st' ha, hy' st' ha⟩
  refine exists_fill hparts (Nat.le_trans hc.grown.size_le hplace) hbusy ?_
  rintro ⟨x', y'⟩ st' ⟨hx', hy'⟩ hnode
  exact like_entries (view_point hn) (view_point hnode)
    (tabled_of_view (view_point hn) fun _ => Form.noConfusion)
    (tabled_of_view (view_point hnode) fun _ => Form.noConfusion)
    (.cons ⟨rfl, hx'⟩ (.cons ⟨rfl, hy'⟩ .nil))

/-- A place that is remembered or not deep needs no new copy. -/
theorem yields_unless (hv : st.Composable z (n + 1) (.ref r)) (hr : r ∉ begun)
    (hfresh : st.Away n r → c.made.lookup r = none →
      Yields st begun busy c (copyValue fuel (.ref r)) fun v st' => st.Like st' (.ref r) v) :
    Yields st begun busy c (copyValue fuel (.ref r)) fun v st' => st.Like st' (.ref r) v := by
  cases hmade : c.made.lookup r with
  | some v =>
    obtain ⟨fuel, rfl⟩ := Nat.exists_eq_succ_of_ne_zero (Nat.ne_of_gt (Nat.zero_lt_of_lt hf))
    exact ⟨v, c, run_made hmade fuel, .refl [] c, hc, (hc.made r v hmade).resolve_left hr⟩
  | none =>
    by_cases hdepth : st.Composable .free n (.ref r)
    · exact ih hz (hv.at_depth hdepth) haway hf hc
    · exact hfresh ⟨⟨n + 1, hv.free⟩, hdepth⟩ hmade

end

theorem get?_eq_none {name : Text} {attributes : Attributes}
    (h : ∀ e ∈ st.entries attributes, asText? e.1 ≠ some name) :
    Fields.get? name (st.fields attributes) = none := by
  rw [fields_eq_filterMap_entries]
  generalize st.entries attributes = es at h
  induction es with
  | nil => rfl
  | cons e es ih =>
    obtain ⟨hfirst, hrest⟩ := List.forall_mem_cons.mp h
    rw [List.filterMap_cons]
    split
    · exact ih hrest
    · next field hfield =>
      obtain ⟨name', hname', rfl⟩ := Option.map_eq_some_iff.mp hfield
      rw [Fields.get?_cons, if_neg fun heq : name' = name => hfirst (heq ▸ hname')]
      exact ih hrest

theorem checkCopyable_eq {kind : Kind} {attributes : Attributes}
    (h : kind.Copyable (st.entries attributes)) :
    st.checkCopyable kind (st.fields attributes) = .ok () := by
  have hhook : ∀ name ∈ Name.hooks, Fields.get? name (st.fields attributes) = none :=
    fun name hname => get?_eq_none fun e he => h.no_hook e he name hname
  have hcopy := hhook Name.copyHook (by decide)
  have hparts := hhook Name.partsHook (by decide)
  have hstate := hhook Name.stateHook (by decide)
  unfold checkCopyable
  rw [hcopy, hparts]
  cases kind with
  | error k core => exact absurd rfl (h.not_error k core)
  | plain | fixed | rectangle | config | combination | selector | builder =>
    show st.checkCallable (st.fields attributes) Name.stateHook = _
    rw [checkCallable, hstate]

/-- A place whose node is known, whatever becomes of busy places, is not busy. -/
theorem Firm.not_mem {v : Value} {place : Ref}
    (h : Firm busy st' fun st₂ => st.Like st₂ v (.ref place)) : place ∉ busy := by
  intro hmem
  have hlike := h (st'.write place .sealed)
    ((agrees_write st' place .sealed).mono (List.cons_subset.mpr ⟨hmem, List.nil_subset _⟩))
  have hclosed : (st'.write place .sealed).node place = .sealed := by
    by_cases hlt : place < st'.size
    · exact st'.node_write_self _ hlt
    · by_contra hne
      exact hlt (by rw [← st'.size_write place .sealed]; exact lt_size_of_node_ne hne)
  cases hlike with
  | scalar h => exact absurd rfl (h place)
  | items _ hv' => exact node_ne_of_view (by rw [hv']; exact View.noConfusion) hclosed
  | entries _ hv' => exact node_ne_of_view (by rw [hv']; exact View.noConfusion) hclosed

/-- What shows what a table shows is a table, whatever becomes of busy places. -/
theorem exists_table_of_like {table : Ref} {es : List (Value × Value)} {v : Value}
    (hn : st.node table = .table es)
    (h : Firm busy st' fun st₂ => st.Like st₂ (.ref table) v) :
    ∃ place es', v = .ref place ∧ st'.node place = .table es' ∧ Firm busy st' fun st₂ =>
      List.Forall₂ (fun e e' => e'.1 = e.1 ∧ st.Like st₂ e.2 e'.2) es es' := by
  cases h.here with
  | scalar hv => exact absurd rfl (hv table)
  | items hv => cases (view_table hn).symm.trans hv
  | @entries _ place _ _ es' hv hv' _ _ _ _ _ =>
    cases (view_table hn).symm.trans hv
    have hplace : st'.node place = .table es' := by
      rcases node_of_view_entries hv' with ⟨-, hnode⟩ | ⟨_, _, hf, -⟩ | ⟨_, _, hf, -⟩
      · exact hnode
      · cases hf
      · cases hf
    have hfirm := firm_node hplace (lt_size_of_view (by rw [hv']; exact View.noConfusion))
      h.not_mem
    refine ⟨place, es', rfl, hplace, fun st₂ ha => ?_⟩
    cases h st₂ ha with
    | scalar hv => exact absurd rfl (hv _)
    | items hv => cases (view_table hn).symm.trans hv
    | entries hv hv' _ _ hl hk h =>
      cases (view_table hn).symm.trans hv
      cases (view_table (hfirm st₂ ha)).symm.trans hv'
      exact forall₂_entries hl hk h

section
variable {fuel : Nat} (ih : st.CopiesAt n) (hz : z.copied = true)
  (haway : ∀ p ∈ begun, st.Away n p) (hf : 2 * n + 1 < fuel) (hc : Ready st begun busy c)

include ih hz haway hf hc

theorem yields_copyOwn {fields : Fields Value}
    (h : ∀ field ∈ fields, st.Composable z n field.2) :
    Yields st begun busy c (copyEntries fuel (.own fields)) fun es' st' =>
      List.Forall₂ (fun e e' => e'.1 = e.1 ∧ st.Like st' e.2 e'.2)
        (st.entries (.own fields)) es' := by
  have hfield : ∀ field ∈ fields, ∀ c, Ready st begun busy c →
      Yields st begun busy c (do pure (Value.str field.1, ← copyValue fuel field.2))
        fun e' st' => e'.1 = .str field.1 ∧ st.Like st' field.2 e'.2 := by
    intro field hfield c hc
    refine (ih hz (h field hfield) haway (by omega) hc).bind fun value c₁ _ hc₁ hlike => ?_
    exact yields_pure hc₁ fun st' ha => ⟨rfl, hlike st' ha⟩
  refine (yields_mapM hfield hc).imp fun es' st' hes => ?_
  rw [entries_own]
  exact List.forall₂_map_left_iff.mpr hes

/-- A table that an object shares is copied as a value, and what its copy holds is taken over. -/
theorem yields_copyShared {table : Ref} {es : List (Value × Value)}
    (hn : st.node table = .table es) (hk : ∀ e ∈ es, ∀ q, e.1 ≠ .ref q)
    (h : ∀ e ∈ es, st.Composable z n e.2) (htable : table ∉ begun) :
    Yields st begun busy c (copyEntries fuel (.shared table)) fun es' st' =>
      List.Forall₂ (fun e e' => e'.1 = e.1 ∧ st.Like st' e.2 e'.2) es es' := by
  have hcopy : Yields st begun busy c (copyValue fuel (.ref table))
      fun v st' => st.Like st' (.ref table) v := by
    refine yields_unless ih hz haway (by omega) hc (composable_table hn hk h) htable ?_
    intro haway' hmade
    obtain ⟨fuel, rfl⟩ := Nat.exists_eq_succ_of_ne_zero (Nat.ne_of_gt (Nat.zero_lt_of_lt hf))
    exact yields_table ih hz haway (by omega) hc hn hk h haway' hmade
  refine hcopy.bind fun v c₁ _ hc₁ hlike => ?_
  obtain ⟨place, es', rfl, hplace, hes⟩ := exists_table_of_like hn hlike
  have hentries : c₁.store.tableEntries place = es' := by rw [tableEntries, hplace]
  refine ⟨es', c₁, ?_, .refl [] c₁, hc₁, hes⟩
  show (ask fun st => .ok (st.tableEntries place)).run c₁ = _
  rw [run_ask, hentries]
  rfl

theorem yields_copyEntries {attributes : Attributes} {kind : Kind} (hs : st.Tabled r)
    (hn : st.node r = .record kind attributes)
    (hk : ∀ e ∈ st.entries attributes, ∀ q, e.1 ≠ .ref q)
    (h : ∀ e ∈ st.entries attributes, st.Composable z n e.2)
    (htable : ∀ table, attributes = .shared table → table ∉ begun) :
    Yields st begun busy c (copyEntries fuel attributes) fun es' st' =>
      List.Forall₂ (fun e e' => e'.1 = e.1 ∧ st.Like st' e.2 e'.2) (st.entries attributes) es' := by
  cases attributes with
  | own fields =>
    refine yields_copyOwn ih hz haway hf hc fun field hfield => ?_
    exact h (.str field.1, field.2) (List.mem_map.mpr ⟨field, hfield, rfl⟩)
  | shared table =>
    obtain ⟨es, htn⟩ := hs kind table hn
    rw [entries_shared, tableEntries, htn] at hk h ⊢
    exact yields_copyShared ih hz haway hf hc htn hk h (htable table rfl)

theorem yields_record {kind : Kind} {attributes : Attributes} (hs : st.Tabled r)
    (hn : st.node r = .record kind attributes) (hkind : kind.Copyable (st.entries attributes))
    (hk : ∀ e ∈ st.entries attributes, ∀ q, e.1 ≠ .ref q)
    (h : ∀ e ∈ st.entries attributes, st.Composable z n e.2) (hr : st.Away n r)
    (htable : ∀ table, attributes = .shared table → table ∉ begun)
    (hmade : c.made.lookup r = none) :
    Yields st begun busy c (copyValue (fuel + 1) (.ref r)) fun v st' => st.Like st' (.ref r) v := by
  have hcheck : c.store.checkCopyable kind (c.store.fields attributes) = .ok () :=
    checkCopyable_eq (by rwa [hc.grown.entries_eq hs hn])
  rw [Yields, run_record hmade fuel (hc.grown.node_eq_of_ne hn Node.noConfusion)
    hkind.not_error hcheck]
  refine yields_reserved hc hmade fun place c₁ _ hplace hbusy _ hc₁ => ?_
  have htable' : ∀ table, attributes = .shared table → table ∉ r :: begun := by
    rintro table rfl
    obtain ⟨es, htn⟩ := hs kind table hn
    refine List.not_mem_cons_of_ne_of_not_mem (fun heq => ?_) (htable table rfl)
    rw [heq, hn] at htn
    cases htn
  have hkept : Yields st (r :: begun) (place :: busy) c₁
      (do keep (← copyEntries fuel attributes)) fun attributes' st' =>
        ∃ es', st'.entries attributes' = es' ∧
          (∀ table, attributes' = .shared table → ∃ es, st'.node table = .table es) ∧
          List.Forall₂ (fun e e' => e'.1 = e.1 ∧ st.Like st' e.2 e'.2)
            (st.entries attributes) es' := by
    refine (yields_copyEntries ih hz (List.forall_mem_cons.mpr ⟨hr, haway⟩) hf hc₁ hs hn hk h
      htable').bind fun es' c₂ _ hc₂ hes => ?_
    obtain ⟨attributes', c₃, hrun, hgrows, hc₃, hentries⟩ := yields_keep hc₂ es'
    exact ⟨attributes', c₃, hrun, hgrows, hc₃, fun st' ha =>
      ⟨es', (hentries st' ha).1, (hentries st' ha).2, hgrows.firm hes st' ha⟩⟩
  refine exists_fill hkept (Nat.le_trans hc.grown.size_le hplace) hbusy ?_
  rintro attributes' st' ⟨es', rfl, htabled, hes⟩ hnode
  refine like_entries (view_record hn) (view_record hnode) hs (fun kind' table hnode' => ?_) hes
  cases hnode.symm.trans hnode'
  exact htabled table rfl

end

/-- **Copies of values of any depth show what the originals show.** What is begun around them is
deeper than they are, so the way down does not come back to it. -/
theorem copiesAt (st : Store) (n : Nat) : st.CopiesAt n := by
  induction n with
  | zero =>
    intro z v fuel begun busy c _ hv _ hf hc
    obtain ⟨fuel, rfl⟩ := Nat.exists_eq_succ_of_ne_zero (Nat.ne_of_gt hf)
    cases hv with
    | scalar h =>
      rw [copyValue_scalar h]
      exact yields_pure hc fun st' _ => .scalar h
  | succ n ih =>
    intro z v fuel begun busy c hz hv haway hf hc
    have hshallow : ∀ p ∈ begun, st.Away n p := fun p hp => (haway p hp).mono (Nat.le_succ n)
    have hnot : ∀ {z r}, st.Composable z (n + 1) (.ref r) → r ∉ begun :=
      fun h hmem => (haway _ hmem).2 h.free
    obtain ⟨fuel, rfl⟩ := Nat.exists_eq_succ_of_ne_zero (Nat.ne_of_gt (Nat.zero_lt_of_lt hf))
    cases hv with
    | scalar h =>
      rw [copyValue_scalar h]
      exact yields_pure hc fun st' _ => .scalar h
    | @items _ _ r vs hv h =>
      refine yields_unless ih hz hshallow (by omega) hc (.items hv h) (hnot (.items hv h)) ?_
      intro hr hmade
      rcases node_of_view_items hv with hn | hn
      · exact yields_list ih hz hshallow (by omega) hc hn h hr hmade
      · exact yields_tuple ih hz hshallow (by omega) hc hn h (hnot (.items hv h)) hmade
    | @entries _ _ r f es hv hs hk hsuits h =>
      have hcomposable := Composable.entries hv hs hk hsuits h
      refine yields_unless ih hz hshallow (by omega) hc hcomposable (hnot hcomposable) ?_
      intro hr hmade
      rcases node_of_view_entries hv with ⟨rfl, hn⟩ | ⟨kind, attributes, rfl, hn, rfl⟩ |
        ⟨x, y, rfl, hn, rfl⟩
      · exact yields_table ih hz hshallow (by omega) hc hn hk h hr hmade
      · refine yields_record ih (Zone.copied_below hz _) hshallow (by omega) hc hs hn
          (hsuits.2 (Or.inl hz)) hk h hr ?_ hmade
        rintro table rfl
        obtain ⟨es, htn⟩ := hs kind table hn
        rw [entries_shared, tableEntries, htn] at hk h
        exact hnot (composable_table htn hk h)
      · have hx := h (.str Name.x, x) List.mem_cons_self
        have hy := h (.str Name.y, y) (List.mem_cons_of_mem _ List.mem_cons_self)
        exact yields_point ih (Zone.copied_below hz .point) hshallow (by omega) hc hn hx hy hr hmade

theorem ready_start (st : Store) : Ready st [] [] ⟨st, []⟩ where
  grown := .refl st
  inside _ hb := absurd hb List.not_mem_nil
  made _ _ h := by cases h

/-- **What can be copied has a copy that shows the same**, whatever is added to the store. -/
theorem Composable.exists_copy {v : Value} (h : st.Composable z n v) (hz : z.copied = true)
    (hn : n ≤ st.size) :
    ∃ v' st', st.copy v = .ok (v', st') ∧ Extends st st' ∧
      ∀ st₂, Extends st' st₂ → st.Like st₂ v v' := by
  have hfuel : 2 * n < st.copyFuel := by
    simp only [copyFuel, Nat.add_mul, Nat.mul_add]
    omega
  obtain ⟨v', c, hrun, _, hc, hlike⟩ := st.copiesAt n hz h
    (fun _ hp => absurd hp List.not_mem_nil) hfuel st.ready_start
  refine ⟨v', c.store, ?_, hc.grown, fun st₂ he => hlike st₂ (he.agrees [])⟩
  rw [Store.copy, hrun]
  rfl

end SelectorForge.Store
