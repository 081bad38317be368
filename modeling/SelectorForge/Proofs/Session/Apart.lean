import SelectorForge.Proofs.Session.Portraits
import SelectorForge.Proofs.Session.Steps

/-!
# Selectors apart

The lists of a selector are made with it, and only the selector leads to them: what it answers with
is a copy. So nothing that is done to other objects reaches them, and a fragment that is appended to
the selector reaches nothing else:

* `Store.Shielded`            hidden nodes, to which only closed nodes lead;
* `Policy.bounded`            no value leads out of the store;
* `Layout.Kept`               a selector whose lists are hidden;
* `Policy.reserve`            what is done elsewhere keeps it;
* `Layout.Kept.run_append`    what is appended to it.
-/

namespace SelectorForge

open Effect Session

/-! ### hidden nodes -/

namespace Store

/-- A value that leads to no hidden node. -/
def Public (st : Store) (hidden : Ref → Prop) (v : Value) : Prop :=
  ∀ r, v = .ref r → r < st.size ∧ ¬ hidden r

/-- Only closed nodes lead to hidden ones. -/
structure Shielded (st : Store) (closed hidden : Ref → Prop) : Prop where
  node : ∀ r, ¬ closed r → ∀ v ∈ (st.node r).values, st.Public hidden v
  given : ∀ member, ∀ v ∈ (st.givenTo member).map Prod.snd, st.Public hidden v

variable {st st' : Store} {closed hidden : Ref → Prop} {v : Value}

theorem public_scalar (h : ∀ r, v ≠ .ref r) : st.Public hidden v := fun r hr => absurd hr (h r)

theorem Public.mono (h : st.Public hidden v) (hs : st.size ≤ st'.size) : st'.Public hidden v :=
  fun r hr => ⟨Nat.lt_of_lt_of_le (h r hr).1 hs, (h r hr).2⟩

/-- Behind the last node there is none. -/
theorem node_eq_sealed {r : Ref} (h : st.size ≤ r) : st.node r = .sealed := by
  by_contra hne
  exact Nat.not_lt.mpr h (lt_size_of_node_ne hne)

theorem Shielded.alloc (h : st.Shielded closed hidden) {n : Node}
    (hn : ¬ closed st.size → ∀ v ∈ n.values, st.Public hidden v) :
    (st.alloc n).2.Shielded closed hidden where
  node r hr v hv := by
    have hs := Nat.le_of_lt (st.size_lt_alloc n)
    rcases Nat.lt_trichotomy r st.size with hlt | rfl | hgt
    · rw [st.node_alloc n r hlt] at hv
      exact (h.node r hr v hv).mono hs
    · rw [st.node_alloc_self n] at hv
      exact (hn hr v hv).mono hs
    · rw [node_eq_sealed (by rw [size_alloc]; exact Nat.succ_le_of_lt hgt)] at hv
      cases hv
  given member v hv := (h.given member v hv).mono (Nat.le_of_lt (st.size_lt_alloc n))

theorem Shielded.write (h : st.Shielded closed hidden) {r : Ref} {n : Node}
    (hn : ¬ closed r → ∀ v ∈ n.values, st.Public hidden v) :
    (st.write r n).Shielded closed hidden where
  node q hq v hv := by
    have hs := Nat.le_of_eq (st.size_write r n).symm
    by_cases hr : r = q
    · subst hr
      by_cases hlt : r < st.size
      · rw [node_write_self _ _ hlt] at hv
        exact (hn hq v hv).mono hs
      · rw [node_eq_sealed (by rw [size_write]; exact Nat.le_of_not_lt hlt)] at hv
        cases hv
    · rw [node_write_of_ne _ _ hr] at hv
      exact (h.node q hq v hv).mono hs
  given member v hv := (h.given member v hv).mono (Nat.le_of_eq (st.size_write r n).symm)

theorem lookup_filter {member : Value} {q : Value → Bool} (hq : q member = true)
    (given : List (Value × Fields Value)) :
    (given.filter fun entry => q entry.1).lookup member = given.lookup member := by
  induction given with
  | nil => rfl
  | cons entry given ih =>
    obtain ⟨other, fields⟩ := entry
    rw [List.filter_cons]
    by_cases he : member = other
    · simp [← he, hq]
    · have hbeq : (member == other) = false := beq_eq_false_iff_ne.mpr he
      cases q other <;> simp [List.lookup_cons, hbeq, ih]

theorem givenTo_give (st : Store) (member other : Value) (fields : Fields Value) :
    (st.give member fields).givenTo other = if other = member then fields else st.givenTo other := by
  unfold givenTo give
  simp only
  rw [List.lookup_cons]
  by_cases he : other = member
  · simp [he]
  · have hbeq : (other == member) = false := beq_eq_false_iff_ne.mpr he
    have hkept := @lookup_filter other (fun v => v != member) (by simpa using he) st.given
    rw [hbeq, if_neg he]
    exact congrArg (fun found => found.getD []) hkept

theorem Shielded.give (h : st.Shielded closed hidden) {member : Value} {fields : Fields Value}
    (hfields : ∀ v ∈ fields.map Prod.snd, st.Public hidden v) :
    (st.give member fields).Shielded closed hidden where
  node := h.node
  given other v hv := by
    rw [givenTo_give] at hv
    split at hv
    · exact hfields v hv
    · exact h.given other v hv

end Store

/-- No value leads out of the store; nothing is hidden. -/
def Policy.bounded : Policy where
  Holds st := st.Shielded (fun _ => False) fun _ => False
  Admits st v := st.Public (fun _ => False) v
  Opens _ := True
  admits_scalar := Store.public_scalar
  admits_mono hs h := h.mono hs
  admits_new _ hs := fun _ hr => ⟨Value.ref.inj hr ▸ hs, id⟩
  opens_new _ := trivial
  opens_of_ne_selector _ _ _ := trivial
  admits_of_mem h _ hv := h.node _ id _ hv
  admits_attribute _ _ hclosed := absurd trivial hclosed
  admits_copied _ _ hclosed := absurd trivial hclosed
  admits_given h hv := h.given _ _ hv
  holds_alloc h hn := h.alloc fun _ => hn
  holds_write h _ _ hn := h.write fun _ => hn
  holds_give h hfields := h.give hfields

/-! ### a selector with hidden lists -/

namespace Layout

variable {l : Layout} {G : Ref → Prop} {st st' : Store} {r : Ref} {s : Compound}

/-- The lists of a selector are hidden, and so are nodes that nothing leads to any more. -/
def Hides (l : Layout) (G : Ref → Prop) (q : Ref) : Prop :=
  (∃ stage : Stage, stage.isSingleton = false ∧ q = l.lists stage) ∨ G q

/-- The object at a reference stands for a compound selector with its configuration, and it is the
only one that leads to its lists. -/
structure Kept (l : Layout) (G : Ref → Prop) (st : Store) (r : Ref) (s : Compound) : Prop where
  represents : l.Represents st r s
  config : st.Configures l.config s.config
  garbage : ∀ q, G q → q < st.size ∧ q ≠ r ∧ l.config ≠ .ref q
  shielded : st.Shielded (fun q => q = r ∨ l.Hides G q) (l.Hides G)

theorem Kept.hides_lt (h : l.Kept G st r s) {q : Ref} (hq : l.Hides G q) : q < st.size := by
  rcases hq with ⟨stage, hs, rfl⟩ | hq
  · exact h.represents.list_lt_size hs
  · exact (h.garbage q hq).1

/-- The object itself is not hidden. -/
theorem Kept.not_hides (h : l.Kept G st r s) : ¬ l.Hides G r := by
  rintro (⟨stage, hs, he⟩ | hr)
  · exact h.represents.ne_list hs he
  · exact (h.garbage r hr).2.1 rfl

theorem Kept.admits_self (h : l.Kept G st r s) : st.Public (l.Hides G) (.ref r) := by
  intro q hq
  cases hq
  exact ⟨h.represents.lt_size, h.not_hides⟩

/-- The configuration is not hidden. -/
theorem Kept.admits_config (h : l.Kept G st r s) : st.Public (l.Hides G) l.config := by
  obtain ⟨q, fields, hq, hn, _⟩ := h.config
  intro q' hq'
  rw [hq'] at hq
  cases hq
  refine ⟨Store.lt_size_of_node_ne (by rw [hn]; exact Node.noConfusion), ?_⟩
  rintro (⟨stage, hs, rfl⟩ | hg)
  · rw [h.represents.list stage hs] at hn
    cases hn
  · exact (h.garbage _ hg).2.2 hq'

theorem Kept.alloc (h : l.Kept G st r s) {n : Node} (hn : ∀ v ∈ n.values, st.Public (l.Hides G) v) :
    l.Kept G (st.alloc n).2 r s where
  represents := h.represents.extend (Store.extends_alloc st n)
  config := h.config.extend (Store.extends_alloc st n)
  garbage q hq := ⟨Nat.lt_trans (h.garbage q hq).1 (st.size_lt_alloc n), (h.garbage q hq).2⟩
  shielded := h.shielded.alloc fun _ => hn

/-- Nothing that is there leads to the next node. -/
theorem public_widen {v : Value} (hv : st.Public (l.Hides G) v) :
    st.Public (l.Hides fun q => G q ∨ q = st.size) v := by
  intro q hq
  refine ⟨(hv q hq).1, ?_⟩
  rintro (hlist | hg | rfl)
  · exact (hv q hq).2 (Or.inl hlist)
  · exact (hv q hq).2 (Or.inr hg)
  · exact Nat.lt_irrefl _ (hv _ hq).1

/-- A node that only an answer leads to can hold anything. -/
theorem Kept.alloc_garbage (h : l.Kept G st r s) (n : Node) :
    l.Kept (fun q => G q ∨ q = st.size) (st.alloc n).2 r s where
  represents := h.represents.extend (Store.extends_alloc st n)
  config := h.config.extend (Store.extends_alloc st n)
  garbage := by
    rintro q (hq | rfl)
    · exact ⟨Nat.lt_trans (h.garbage q hq).1 (st.size_lt_alloc n), (h.garbage q hq).2⟩
    · refine ⟨st.size_lt_alloc n, Nat.ne_of_gt h.represents.lt_size, fun hconfig => ?_⟩
      exact Nat.lt_irrefl _ (h.admits_config _ hconfig).1
  shielded := by
    have hshielded : st.Shielded (fun q => q = r ∨ l.Hides (fun q => G q ∨ q = st.size) q)
        (l.Hides fun q => G q ∨ q = st.size) := by
      refine ⟨fun q hq v hv => public_widen (h.shielded.node q (fun hclosed => hq ?_) v hv),
        fun member v hv => public_widen (h.shielded.given member v hv)⟩
      exact hclosed.imp_right (Or.imp_right Or.inl)
    exact hshielded.alloc fun hopen => absurd (Or.inr (Or.inr (Or.inr rfl))) hopen

/-- What is written elsewhere leaves the selector as it is. -/
theorem Kept.write (h : l.Kept G st r s) {q : Ref} {n : Node} (hq : ¬ (q = r ∨ l.Hides G q))
    (hbecomes : (st.node q).Becomes n) (hn : ∀ v ∈ n.values, st.Public (l.Hides G) v) :
    l.Kept G (st.write q n) r s where
  represents := h.represents.congr (st.node_write_of_ne n fun he => hq (Or.inl he))
    fun stage hs => st.node_write_of_ne n fun he => hq (Or.inr (Or.inl ⟨stage, hs, he⟩))
  config := by
    obtain ⟨c, fields, hc, hnode, hread⟩ := h.config
    refine ⟨c, fields, hc, ?_, hread⟩
    rw [st.node_write_of_ne n, hnode]
    rintro rfl
    rw [hnode] at hbecomes
    exact absurd hbecomes.isFixed_eq_false (by simp [Node.isFixed, Kind.isFrozen])
  garbage q' hq' := by
    rw [st.size_write]
    exact h.garbage q' hq'
  shielded := h.shielded.write fun _ => hn

theorem Kept.give (h : l.Kept G st r s) {member : Value} {fields : Fields Value}
    (hfields : ∀ v ∈ fields.map Prod.snd, st.Public (l.Hides G) v) :
    l.Kept G (st.give member fields) r s where
  represents := h.represents.congr rfl fun _ _ => rfl
  config := h.config
  garbage := h.garbage
  shielded := h.shielded.give hfields

/-- Apart from its lists, what a selector holds is not hidden. -/
theorem Kept.admits_attribute (h : l.Kept G st r s) {name : Text} {v : Value}
    (hname : ∀ stage, name ≠ Name.slot stage) (hv : Fields.get? name (l.fields s) = some v) :
    st.Public (l.Hides G) v := by
  have hlatest : st.Public (l.Hides G) (latestValue s.stage) :=
    Store.public_scalar fun _ => by cases s.stage <;> exact Value.noConfusion
  rcases List.mem_cons.mp (Fields.mem_of_get? hv) with he | hv
  · cases he
    exact h.admits_config
  · rcases List.mem_cons.mp hv with he | hv
    · cases he
      exact hlatest
    · obtain ⟨stage, _, he⟩ := List.mem_map.mp hv
      exact absurd (Prod.mk.inj he).1.symm (hname stage)

/-- What is in the place of a stage, item by item, is text. -/
theorem Kept.public_items (h : l.Kept G st r s) {stage : Stage} {vs : List Value}
    (hvs : st.items (l.slotValue s stage) = .ok vs) : ∀ u ∈ vs, st.Public (l.Hides G) u := by
  have htexts : ∀ ts : List Text, ∀ u ∈ ts.map Value.str, st.Public (l.Hides G) u := by
    intro ts u hu
    obtain ⟨t, _, rfl⟩ := List.mem_map.mp hu
    exact Store.public_scalar fun _ => Value.noConfusion
  unfold slotValue at hvs
  split at hvs
  · cases ho : s.occupant stage with
    | none =>
      rw [ho] at hvs
      cases hvs
    | some t =>
      rw [ho] at hvs
      cases hvs
      intro u hu
      obtain ⟨c, _, rfl⟩ := List.mem_map.mp hu
      exact Store.public_scalar fun _ => Value.noConfusion
  · next hs =>
    rw [h.represents.items_list stage (by simpa using hs)] at hvs
    cases hvs
    exact htexts _

end Layout

/-- What does not lead to the hidden nodes may be moved, and everything but the selector and the
hidden nodes may be opened. -/
def Policy.reserve (l : Layout) (G : Ref → Prop) (r : Ref) (s : Compound) : Policy where
  Holds st := l.Kept G st r s
  Admits st v := st.Public (l.Hides G) v
  Opens q := ¬ (q = r ∨ l.Hides G q)
  admits_scalar := Store.public_scalar
  admits_mono hs h := h.mono hs
  admits_new h hs := fun _ hr => by
    cases hr
    exact ⟨hs, fun hhides => Nat.lt_irrefl _ (h.hides_lt hhides)⟩
  opens_new h := by
    rintro (hr | hhides)
    · exact Nat.ne_of_gt h.represents.lt_size hr
    · exact Nat.lt_irrefl _ (h.hides_lt hhides)
  opens_of_ne_selector h hadmits hne := by
    rintro (rfl | hhides)
    · exact hne _ h.represents.object
    · exact (hadmits _ rfl).2 hhides
  admits_of_mem h hopen hv := h.shielded.node _ hopen _ hv
  admits_attribute h hadmits hclosed hn hname hv := by
    obtain rfl := (not_not.mp hclosed).resolve_right (hadmits _ rfl).2
    rw [h.represents.object] at hn
    cases hn
    exact h.admits_attribute hname hv
  admits_copied h hadmits hclosed hn hv hvs := by
    obtain rfl := (not_not.mp hclosed).resolve_right (hadmits _ rfl).2
    rw [h.represents.object] at hn
    cases hn
    rw [Store.fields_own, Layout.fields_eq, Layout.get?_slot] at hv
    cases hv
    exact h.public_items hvs
  admits_given h hv := h.shielded.given _ _ hv
  holds_alloc h hn := h.alloc hn
  holds_write h hopen hbecomes hn := h.write hopen hbecomes hn
  holds_give h hfields := h.give hfields

namespace Layout

variable {l : Layout} {G : Ref → Prop} {st st' : Store} {r : Ref} {s s' : Compound}
  {target : Stage} {value : Text}

/-! ### growing stays at its place -/

/-- Only the object and its lists have changed. -/
structure Confined (l : Layout) (r : Ref) (st st' : Store) : Prop where
  size_eq : st'.size = st.size
  given_eq : st'.given = st.given
  node_eq : ∀ q, q ≠ r → (∀ stage : Stage, stage.isSingleton = false → q ≠ l.lists stage) →
    st'.node q = st.node q

theorem Confined.refl (l : Layout) (r : Ref) (st : Store) : l.Confined r st st :=
  ⟨rfl, rfl, fun _ _ _ => rfl⟩

theorem Confined.trans {st'' : Store} (h : l.Confined r st st') (h' : l.Confined r st' st'') :
    l.Confined r st st'' where
  size_eq := h'.size_eq.trans h.size_eq
  given_eq := h'.given_eq.trans h.given_eq
  node_eq q hr hl := (h'.node_eq q hr hl).trans (h.node_eq q hr hl)

theorem Stands.confined_assign {latest : Value} (h : l.Stands latest st r s) (name : Text)
    (v : Value) : l.Confined r st (st.assign r name v) where
  size_eq := st.size_assign r name v
  given_eq := by simp only [Store.assign, Store.changeAttributes, h.object, Store.write]
  node_eq q hr _ := st.node_changeAttributes_own h.object (Ne.symm hr) _ _

theorem Represents.confined_push (h : l.Represents st r s) (ht : target.isSingleton = false)
    (hpush : st.push (.ref (l.lists target)) (.str value) = .ok st') : l.Confined r st st' := by
  simp only [Store.push, h.list target ht] at hpush
  cases hpush
  exact ⟨st.size_write _ _, rfl, fun q _ hl => st.node_write_of_ne _ (Ne.symm (hl target ht))⟩

theorem Represents.confined_put (h : l.Represents st r { s with stage := some target })
    {notes : List Text} {u : Unit} {w : World}
    (hrun : (put r target value).run ⟨st, notes⟩ = (.ok u, w)) : l.Confined r st w.store := by
  unfold put at hrun
  cases ht : target.isSingleton with
  | true =>
    simp only [ht, if_true] at hrun
    cases hrun
    exact h.confined_assign _ _
  | false =>
    simp only [ht, Bool.false_eq_true, if_false] at hrun
    obtain ⟨st₁, hpush, _⟩ := h.push_list ht value
    rw [run_bind, run_query, h.lookup_slot, slotValue, if_neg (by simp [ht])] at hrun
    simp only at hrun
    rw [run_change_ok (w := ⟨_, notes⟩) hpush] at hrun
    cases hrun
    exact h.confined_push ht hpush

theorem Stands.confined_append {latest : Value} (h : l.Stands latest st r s) {reject : Manner}
    (hguards : Guards latest s.stage reject st) {notes : List Text}
    (hr : s.rejection? target = none) {v : Value} {w : World}
    (hrun : (append (.ref r) target value).run ⟨st, notes⟩ = (.ok v, w)) :
    l.Confined r st w.store := by
  rw [h.run_append_eq, run_bind, h.run_moveUp hguards, hr] at hrun
  obtain ⟨u, w', hput, hdone⟩ := run_bind_eq_ok hrun
  cases hdone
  exact (h.confined_assign _ _).trans ((h.assign_stage target).confined_put hput)

theorem Represents.confined_append (h : l.Represents st r s) {notes : List Text}
    (hr : s.rejection? target = none) {v : Value} {w : World}
    (hrun : (append (.ref r) target value).run ⟨st, notes⟩ = (.ok v, w)) :
    l.Confined r st w.store :=
  Stands.confined_append h (guards_latestValue s.stage st) hr hrun

/-- What happens to a selector happens to no other records. -/
theorem Represents.node_record (h : l.Represents st r s) (hc : l.Confined r st st') {q : Ref}
    {kind : Kind} {attributes : Attributes} (hn : st.node q = .record kind attributes)
    (hkind : kind ≠ .selector) : st'.node q = .record kind attributes := by
  rw [hc.node_eq q ?_ fun stage hs => ?_, hn]
  · rintro rfl
    rw [h.object] at hn
    cases hn
    exact hkind rfl
  · rintro rfl
    rw [h.list stage hs] at hn
    cases hn

theorem Represents.configures (h : l.Represents st r s) (hc : l.Confined r st st') {v : Value}
    {config : Config} (hv : st.Configures v config) : st'.Configures v config := by
  obtain ⟨q, fields, hq, hn, hread⟩ := hv
  exact ⟨q, fields, hq, h.node_record hc hn Kind.noConfusion, hread⟩

theorem Kept.confined (h : l.Kept G st r s) (hc : l.Confined r st st')
    (hrep : l.Represents st' r s') (hconfig : s'.config = s.config) : l.Kept G st' r s' where
  represents := hrep
  config := by
    rw [hconfig]
    exact h.represents.configures hc h.config
  garbage q hq := by
    rw [hc.size_eq]
    exact h.garbage q hq
  shielded := by
    have hs : st.size ≤ st'.size := Nat.le_of_eq hc.size_eq.symm
    refine ⟨fun q hq v hv => ?_, fun member v hv => ?_⟩
    · rw [hc.node_eq q (fun he => hq (Or.inl he))
        fun stage hs he => hq (Or.inr (Or.inl ⟨stage, hs, he⟩))] at hv
      exact (h.shielded.node q hq v hv).mono hs
    · rw [Store.givenTo, hc.given_eq] at hv
      exact (h.shielded.given member v hv).mono hs

/-- **One call to a kept selector**: it is rejected, or the selector grows and is kept. -/
theorem Kept.run_append (h : l.Kept G st r s) (notes : List Text) (target : Stage)
    (value : Text) :
    match s.append target value with
    | .error rejection => (append (.ref r) target value).run ⟨st, notes⟩
        = (.error (.rejected rejection), ⟨st, notes ++ [rejection.note]⟩)
    | .ok s' => ∃ st',
        (append (.ref r) target value).run ⟨st, notes⟩ = (.ok (.ref r), ⟨st', notes⟩) ∧
        l.Kept G st' r s' ∧ st'.size = st.size := by
  have hrun := h.represents.run_append notes target value
  cases hs : s.append target value with
  | error rejection =>
    rw [hs] at hrun
    exact hrun
  | ok s' =>
    rw [hs] at hrun
    obtain ⟨st', hrun, hrep⟩ := hrun
    obtain ⟨hr, rfl⟩ := (Compound.append_eq_ok_iff _ _ _ _).mp hs
    have hc : l.Confined r st st' := h.represents.confined_append hr hrun
    exact ⟨st', hrun, h.confined hc hrep (s.config_place target value), hc.size_eq⟩

/-! ### new selectors -/

theorem extends_withHeld (st : Store) (config latest : Value) (s : Compound) :
    Store.Extends st (withHeld st config latest s) :=
  (Store.extends_alloc _ _).trans ((Store.extends_alloc _ _).trans
    ((Store.extends_alloc _ _).trans (Store.extends_alloc _ _)))

theorem extends_withSelector (st : Store) (c : Value) : Store.Extends st (withSelector st c) :=
  extends_withHeld st c .null (.empty {})

/-- What was there before does not lead to the lists of a new selector. -/
theorem public_new {v : Value} (hv : Policy.bounded.Admits st v) (c : Value) :
    st.Public ((new st c).Hides fun _ => False) v := by
  intro q hq
  have hlt : q < st.size := (hv q hq).1
  refine ⟨hlt, ?_⟩
  rintro (⟨stage, hs, rfl⟩ | hfalse)
  · exact absurd hlt (Nat.not_lt.mpr (le_lists_new hs))
  · exact hfalse

/-- A new selector is kept: nothing that was there before can lead to its lists. -/
theorem kept_withSelector (hst : Policy.bounded.Holds st) {c : Value} {config : Config}
    (hc : st.Configures c config) :
    (new st c).Kept (fun _ => False) (withSelector st c) (st.size + 3) (.empty config) := by
  have hrep := represents_withSelector st c config
  have hshielded : st.Shielded (fun q => q = st.size + 3 ∨ (new st c).Hides (fun _ => False) q)
      ((new st c).Hides fun _ => False) :=
    ⟨fun q _ v hv => public_new (hst.node q id v hv) c,
      fun member v hv => public_new (hst.given member v hv) c⟩
  have hnil : ∀ {st' : Store}, ∀ v ∈ (Node.list []).values,
      st'.Public ((new st c).Hides fun _ => False) v := fun v hv => absurd hv List.not_mem_nil
  refine ⟨hrep, hc.extend (extends_withSelector st c),
    fun _ hfalse => absurd hfalse id, ?_⟩
  refine (((hshielded.alloc fun _ => hnil).alloc fun _ => hnil).alloc fun _ => hnil).alloc
    fun hopen => absurd (Or.inl ?_) hopen
  rw [Store.size_alloc, Store.size_alloc, Store.size_alloc]

end Layout

end SelectorForge
