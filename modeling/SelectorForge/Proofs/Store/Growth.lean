import SelectorForge.Proofs.Selector.History
import SelectorForge.Store.Selector

/-!
# Growing a selector in a store

A selector of a store keeps its fragments in six places and its latest stage in another one. As long
as nothing else is done to it, it stands for a compound selector, and what its operations answer
depends on the fragments that were accepted before and on nothing else:

* `Layout`               where the lists of a selector are, and its configuration;
* `Layout.Stands`        the object at a reference holds the fragments of a compound selector, and a
  latest stage of some kind;
* `Layout.Guards`        what this latest stage does with a stage that is before it;
* `Layout.Represents`    the object stands for the compound selector, its latest stage is a stage;
* `Stands.run_append`    one call;
* `Calls`                a list of calls, made whatever comes of the single ones;
* `Calls.history`        what a further call answers, from the accepted fragments.
-/

namespace SelectorForge

open Effect

/-- The parts of a selector that its fragments do not change: the configuration, and where the
lists are. -/
structure Layout where
  config : Value
  lists : Stage → Ref

namespace Layout

variable {l : Layout} {s : Compound} {st : Store} {r : Ref} {target : Stage} {value : Text}
  {latest : Value}

/-! ### the attributes -/

def latestValue : Option Stage → Value
  | none => .null
  | some stage => .stage stage

def occupantValue : Option Text → Value
  | none => .null
  | some t => .str t

/-- What stands in the place of a stage. -/
def slotValue (l : Layout) (s : Compound) (stage : Stage) : Value :=
  if stage.isSingleton then occupantValue (s.occupant stage) else .ref (l.lists stage)

/-- The attributes with any value in the place of the latest stage. -/
def fieldsWith (l : Layout) (latest : Value) (s : Compound) : Fields Value :=
  (Name.ownConfig, l.config) :: (Name.ownStage, latest)
    :: Stage.all.map fun stage => (Name.slot stage, l.slotValue s stage)

/-- The attributes, with the latest stage of the selector in its place. -/
def fields (l : Layout) (s : Compound) : Fields Value := l.fieldsWith (latestValue s.stage) s

theorem fields_eq (l : Layout) (s : Compound) :
    l.fields s = l.fieldsWith (latestValue s.stage) s := rfl

/-- The object at a reference holds the fragments of a compound selector, with a list of its own for
each stage that can hold several of them, and some value in the place of the latest stage. -/
structure Stands (l : Layout) (latest : Value) (st : Store) (r : Ref) (s : Compound) : Prop where
  object : st.node r = .record .selector (.own (l.fieldsWith latest s))
  list : ∀ stage, stage.isSingleton = false →
    st.node (l.lists stage) = .list ((s.held stage).map Value.str)
  apart : ∀ a b, a.isSingleton = false → b.isSingleton = false → l.lists a = l.lists b → a = b

/-- The object at a reference stands for a compound selector: its latest stage is that of the
selector. -/
abbrev Represents (l : Layout) (st : Store) (r : Ref) (s : Compound) : Prop :=
  l.Stands (latestValue s.stage) st r s

theorem Represents.object (h : l.Represents st r s) :
    st.node r = .record .selector (.own (l.fields s)) := Stands.object h

theorem get?_slot :
    Fields.get? (Name.slot target) (l.fieldsWith latest s) = some (l.slotValue s target) := by
  cases target <;> rfl

theorem get?_ofStage : Fields.get? (Name.ofStage target) (l.fieldsWith latest s) = none := by
  cases target <;> rfl

theorem get?_moveUp : Fields.get? Name.moveUp (l.fieldsWith latest s) = none := rfl

theorem put_ownStage : Fields.put Name.ownStage (.stage target) (l.fieldsWith latest s)
    = l.fields { s with stage := some target } := rfl

theorem put_slot (h : target.isSingleton = true) :
    Fields.put (Name.slot target) (.str value) (l.fields { s with stage := some target })
      = l.fields (s.place target value) := by
  cases target <;> first | rfl | cases h

theorem fields_place (h : target.isSingleton = false) :
    l.fields (s.place target value) = l.fields { s with stage := some target } := by
  cases target <;> first | rfl | cases h

theorem reserved?_slot : Kind.reserved? .selector (Name.slot target) = none := by
  cases target <;> rfl

/-! ### reading -/

theorem Stands.lookup_ownStage (h : l.Stands latest st r s) :
    st.lookup (.ref r) Name.ownStage = .ok latest := by
  simp only [Store.lookup, h.object]
  rfl

theorem Stands.lookup_slot (h : l.Stands latest st r s) (stage : Stage) :
    st.lookup (.ref r) (Name.slot stage) = .ok (l.slotValue s stage) := by
  simp only [Store.lookup, h.object, reserved?_slot, Store.fields_own, Store.recordAttribute,
    get?_slot]

theorem Stands.lt_size (h : l.Stands latest st r s) : r < st.size :=
  Store.lt_size_of_node_ne (by rw [h.object]; exact Node.noConfusion)

theorem Stands.list_lt_size (h : l.Stands latest st r s) {stage : Stage}
    (hs : stage.isSingleton = false) : l.lists stage < st.size :=
  Store.lt_size_of_node_ne (by rw [h.list stage hs]; exact Node.noConfusion)

theorem Stands.ne_list (h : l.Stands latest st r s) {stage : Stage}
    (hs : stage.isSingleton = false) : r ≠ l.lists stage := by
  rintro rfl
  have hn := h.object
  rw [h.list stage hs] at hn
  cases hn

/-- Only the object and its lists count. -/
theorem Stands.congr {st' : Store} (h : l.Stands latest st r s) (hr : st'.node r = st.node r)
    (hl : ∀ stage : Stage, stage.isSingleton = false →
      st'.node (l.lists stage) = st.node (l.lists stage)) : l.Stands latest st' r s where
  object := by rw [hr, h.object]
  list stage hs := by rw [hl stage hs, h.list stage hs]
  apart := h.apart

/-! ### moving up -/

/-- What a selector is asked for its place before a fragment is put there. -/
def occupant (l : Layout) (s : Compound) (target : Stage) : Value :=
  if target.isSingleton then l.slotValue s target else .null

theorem occupant_eq : l.occupant s target = occupantValue (s.occupant target) := by
  cases target <;> rfl

theorem occupant_eq_null_iff : l.occupant s target = .null ↔ s.occupant target = none := by
  rw [occupant_eq]
  cases s.occupant target <;> simp [occupantValue]

theorem isAfter_latestValue (st : Store) (latest : Option Stage) (target : Stage) :
    isAfter st (latestValue latest) target
      = .ok (latest.any fun stage => decide (target < stage)) := by
  cases latest with
  | none => rfl
  | some stage =>
    show Except.ok (decide ((target.ordinal : Int) < stage.ordinal)) = _
    simp [Stage.lt_iff]

theorem singleton_of_occupant {stage : Stage} (h : s.occupant stage ≠ none) :
    stage.isSingleton = true := by
  cases stage <;> first | rfl | exact absurd rfl h

/-- The end of `moveUp`, where the order has been found right. -/
theorem run_duplicate (r : Ref) (w : World) :
    ((if target.isSingleton ∧ l.occupant s target ≠ .null then do
        note (Rejection.duplicate target).note
        fail (.rejected (.duplicate target))
      else assign r Name.ownStage (.stage target) : Effect Unit)).run w
      = match s.duplicate? target with
      | some rejection =>
        (.error (.rejected rejection), { w with notes := w.notes ++ [rejection.note] })
      | none => (.ok (), { w with store := w.store.assign r Name.ownStage (.stage target) }) := by
  unfold Compound.duplicate?
  by_cases h : s.occupant target = none
  · rw [if_neg fun hc => hc.2 (occupant_eq_null_iff.mpr h), run_assign, h]
    rfl
  · rw [if_pos ⟨singleton_of_occupant h, fun hn => h (occupant_eq_null_iff.mp hn)⟩,
      if_pos (Option.isSome_iff_ne_none.mpr h), run_bind, run_note]
    rfl

/-- How an object rejects a fragment: the fault, and the lines in the log. -/
abbrev Manner := Rejection → Fault × List Text

def labelled : Manner := fun rejection => (.rejected rejection, [rejection.note])

/-- A value in the place of the latest stage knows the order, and rejects in some manner what is out
of order. What is there already is rejected without it. -/
structure Guards (latest : Value) (stage : Option Stage) (reject : Manner) (st : Store) : Prop where
  isAfter : ∀ target, isAfter st latest target
    = .ok (stage.any fun latest => decide (target < latest))
  outOfOrder : ∀ target last, stage = some last → ∀ notes,
    (rejectAfter latest target).run ⟨st, notes⟩
      = (.error (reject (.outOfOrder target last)).1,
        ⟨st, notes ++ (reject (.outOfOrder target last)).2⟩)
  duplicate : ∀ target, reject (.duplicate target) = labelled (.duplicate target)

theorem guards_latestValue (stage : Option Stage) (st : Store) :
    Guards (latestValue stage) stage labelled st where
  isAfter := isAfter_latestValue st stage
  outOfOrder target last hstage notes := by
    rw [hstage, latestValue, rejectAfter, run_bind, run_note]
    rfl
  duplicate _ := rfl

theorem Stands.run_moveUp (h : l.Stands latest st r s) {reject : Manner}
    (hguards : Guards latest s.stage reject st) (notes : List Text) (target : Stage) :
    (moveUp r target (l.occupant s target)).run ⟨st, notes⟩ = match s.rejection? target with
      | some rejection => (.error (reject rejection).1, ⟨st, notes ++ (reject rejection).2⟩)
      | none => (.ok (), ⟨st.assign r Name.ownStage (.stage target), notes⟩) := by
  have hduplicate : (match s.duplicate? target with
      | some rejection => (.error (reject rejection).1, ⟨st, notes ++ (reject rejection).2⟩)
      | none => (.ok (), ⟨st.assign r Name.ownStage (.stage target), notes⟩) :
        Except Fault Unit × World)
      = match s.duplicate? target with
      | some rejection => (.error (.rejected rejection), ⟨st, notes ++ [rejection.note]⟩)
      | none => (.ok (), ⟨st.assign r Name.ownStage (.stage target), notes⟩) := by
    cases hd : s.duplicate? target with
    | none => rfl
    | some rejection =>
      obtain ⟨-, rfl⟩ := (Compound.duplicate?_eq rejection).mp hd
      simp only [hguards.duplicate, labelled]
  unfold moveUp Compound.rejection?
  simp only [run_bind, run_query, h.lookup_ownStage, hguards.isAfter]
  cases hst : s.stage with
  | none => exact (run_duplicate r ⟨st, notes⟩).trans hduplicate.symm
  | some last =>
    simp only [Option.any_some]
    by_cases hlt : target < last
    · rw [if_pos hlt, if_pos (decide_eq_true hlt)]
      exact hguards.outOfOrder target last hst notes
    · rw [if_neg hlt, if_neg fun hd => hlt (of_decide_eq_true hd)]
      exact (run_duplicate r ⟨st, notes⟩).trans hduplicate.symm

/-! ### putting a fragment into its place -/

/-- A change of the object itself. -/
theorem Stands.node_assign (h : l.Stands latest st r s) (name : Text) (v : Value) :
    (st.assign r name v).node r
      = .record .selector (.own (Fields.put name v (l.fieldsWith latest s))) := by
  simp only [Store.assign, Store.changeAttributes, h.object]
  exact Store.node_write_self _ _ h.lt_size

theorem Stands.node_list_assign (h : l.Stands latest st r s) (name : Text) (v : Value)
    {stage : Stage} (hs : stage.isSingleton = false) :
    (st.assign r name v).node (l.lists stage) = .list ((s.held stage).map Value.str) := by
  rw [← h.list stage hs]
  refine st.node_assign_of_ne (h.ne_list hs) (fun entries he => ?_) name v
  rw [h.list stage hs] at he
  cases he

theorem held_moved (s : Compound) (latest : Option Stage) (stage : Stage) :
    { s with stage := latest : Compound }.held stage = s.held stage := by
  cases stage <;> rfl

/-- Whatever stood in the place of the latest stage, there is a stage afterwards. -/
theorem Stands.assign_stage (h : l.Stands latest st r s) (target : Stage) :
    l.Represents (st.assign r Name.ownStage (.stage target)) r { s with stage := some target } where
  object := by rw [h.node_assign, put_ownStage, fields_eq]
  list stage hs := by
    rw [h.node_list_assign _ _ hs, held_moved s (some target)]
  apart := h.apart

/-- The end of a call for a stage with one fragment. -/
theorem Represents.assign_slot (h : l.Represents st r { s with stage := some target })
    (ht : target.isSingleton = true) (value : Text) :
    l.Represents (st.assign r (Name.slot target) (.str value)) r (s.place target value) where
  object := by
    rw [← fields_eq, ← put_slot ht]
    exact h.node_assign _ _
  list stage hs := by
    have hne : stage ≠ target := by
      rintro rfl
      rw [ht] at hs
      cases hs
    rw [h.node_list_assign _ _ hs, held_moved, Compound.held_place_of_ne s hne]
  apart := h.apart

/-- The end of a call for a stage with a list. -/
theorem Represents.push_list (h : l.Represents st r { s with stage := some target })
    (ht : target.isSingleton = false) (value : Text) :
    ∃ st', st.push (.ref (l.lists target)) (.str value) = .ok st' ∧
      l.Represents st' r (s.place target value) := by
  have hlist := h.list target ht
  simp only [Store.push, hlist]
  refine ⟨_, rfl, ?_, fun stage hs => ?_, h.apart⟩
  · rw [Store.node_write_of_ne _ _ (h.ne_list ht).symm, h.object, ← fields_eq, fields_place ht]
  · by_cases he : stage = target
    · have hfree : ¬ Taken s.fragments target := by
        rintro ⟨hc, _⟩
        rw [ht] at hc
        cases hc
      rw [he, Store.node_write_self _ _ (h.list_lt_size ht), held_moved,
        Compound.held_place_self hfree, List.map_append]
      rfl
    · rw [Store.node_write_of_ne _ _ fun heq => he (h.apart _ _ hs ht heq.symm), h.list stage hs,
        held_moved, Compound.held_place_of_ne s he]

/-! ### one call -/

theorem run_checkOperation {name : Text}
    (hn : Fields.get? name (l.fieldsWith latest s) = none) (w : World) :
    (checkOperation (.own (l.fieldsWith latest s)) name).run w = (.ok (), w) := by
  rw [checkOperation, run_query, Store.fields_own, Store.checkCallable, hn]

/-- A call that does not fail ends with this. -/
def put (r : Ref) (target : Stage) (value : Text) : Effect Unit :=
  if target.isSingleton then assign r (Name.slot target) (.str value)
  else do
    let list ← query fun st => st.lookup (.ref r) (Name.slot target)
    change fun st => st.push list (.str value)

/-- Up to the place of the fragment, a call is a try to move up. -/
theorem Stands.run_append_eq (h : l.Stands latest st r s) (notes : List Text) (target : Stage)
    (value : Text) :
    (append (.ref r) target value).run ⟨st, notes⟩ =
      (moveUp r target (l.occupant s target) >>= fun _ =>
        put r target value >>= fun _ => pure (.ref r)).run ⟨st, notes⟩ := by
  have happend : (append (.ref r) target value).run ⟨st, notes⟩
      = (appendTo r (.own (l.fieldsWith latest s)) target value >>= fun _ =>
        pure (.ref r)).run ⟨st, notes⟩ := by
    unfold append grow
    simp only
    rw [run_bind, run_query, h.object]
    simp only
    rw [run_bind, run_query, h.object]
  have happendTo : (appendTo r (.own (l.fieldsWith latest s)) target value).run ⟨st, notes⟩
      = (moveUp r target (l.occupant s target) >>= fun _ =>
        put r target value).run ⟨st, notes⟩ := by
    unfold appendTo
    rw [run_bind, run_checkOperation get?_ofStage]
    cases ht : target.isSingleton with
    | true =>
      simp only [if_true]
      rw [run_bind, run_query, h.lookup_slot]
      simp only
      rw [run_bind, run_checkOperation get?_moveUp, occupant, if_pos ht]
      unfold put
      simp only [ht, if_true]
    | false =>
      simp only [Bool.false_eq_true, if_false]
      rw [run_bind, run_pure]
      simp only
      rw [run_bind, run_checkOperation get?_moveUp, occupant, if_neg (by simp [ht])]
      unfold put
      simp only [ht, Bool.false_eq_true, if_false]
  rw [happend, run_bind, happendTo, ← run_bind, bind_assoc]

/-- The end of a call that does not fail. -/
theorem Represents.run_put (h : l.Represents st r { s with stage := some target })
    (notes : List Text) (value : Text) :
    ∃ st', (put r target value).run ⟨st, notes⟩ = (.ok (), ⟨st', notes⟩) ∧
      l.Represents st' r (s.place target value) := by
  unfold put
  cases ht : target.isSingleton with
  | true => exact ⟨_, rfl, h.assign_slot ht value⟩
  | false =>
    obtain ⟨st', hpush, hst'⟩ := h.push_list ht value
    refine ⟨st', ?_, hst'⟩
    simp only [Bool.false_eq_true, if_false]
    rw [run_bind, run_query, h.lookup_slot, slotValue, if_neg (by simp [ht])]
    exact run_change_ok hpush

/-- **One call**: a fragment that is rejected changes nothing; any other one is put into its place,
and its stage becomes the latest one. -/
theorem Stands.run_append (h : l.Stands latest st r s) {reject : Manner}
    (hguards : Guards latest s.stage reject st) (notes : List Text) (target : Stage)
    (value : Text) :
    match s.append target value with
    | .error rejection => (append (.ref r) target value).run ⟨st, notes⟩
        = (.error (reject rejection).1, ⟨st, notes ++ (reject rejection).2⟩)
    | .ok s' => ∃ st',
        (append (.ref r) target value).run ⟨st, notes⟩ = (.ok (.ref r), ⟨st', notes⟩) ∧
        l.Represents st' r s' := by
  rw [h.run_append_eq, run_bind, h.run_moveUp hguards]
  unfold Compound.append
  cases hr : s.rejection? target with
  | some rejection => rfl
  | none =>
    obtain ⟨st', hrun, hst'⟩ := (h.assign_stage target).run_put notes value
    refine ⟨st', ?_, hst'⟩
    simp only
    rw [run_bind, hrun]
    rfl

/-- One call where a stage is the latest one: a fragment that is rejected is noted. -/
theorem Represents.run_append (h : l.Represents st r s) (notes : List Text) (target : Stage)
    (value : Text) :
    match s.append target value with
    | .error rejection => (append (.ref r) target value).run ⟨st, notes⟩
        = (.error (.rejected rejection), ⟨st, notes ++ [rejection.note]⟩)
    | .ok s' => ∃ st',
        (append (.ref r) target value).run ⟨st, notes⟩ = (.ok (.ref r), ⟨st', notes⟩) ∧
        l.Represents st' r s' :=
  Stands.run_append h (guards_latestValue s.stage st) notes target value

/-! ### a fresh selector -/

theorem run_configOr (config : Value) (w : World) :
    ∃ c st, (configOr config).run w = (.ok c, { w with store := st }) := by
  unfold configOr
  rw [run_bind, run_query]
  simp only
  by_cases h : w.store.truthy config = true
  · rw [if_pos h]
    exact ⟨config, w.store, rfl⟩
  · rw [if_neg h]
    exact ⟨_, _, rfl⟩

/-- Where the lists of a new selector are. -/
def newLists (classes attributes pseudoClasses : Ref) : Stage → Ref
  | .attr => attributes
  | .pseudoClass => pseudoClasses
  | _ => classes

theorem newLists_injective {i j k : Ref} (hij : i < j) (hjk : j < k) {a b : Stage}
    (ha : a.isSingleton = false) (hb : b.isSingleton = false)
    (h : newLists i j k a = newLists i j k b) : a = b := by
  have hij' := Nat.ne_of_lt hij
  have hjk' := Nat.ne_of_lt hjk
  have hik' := Nat.ne_of_lt (Nat.lt_trans hij hjk)
  cases a <;> cases b <;>
    first
    | rfl
    | exact Bool.noConfusion ha
    | exact Bool.noConfusion hb
    | exact absurd h hij'
    | exact absurd h.symm hij'
    | exact absurd h hjk'
    | exact absurd h.symm hjk'
    | exact absurd h hik'
    | exact absurd h.symm hik'

/-- Where the parts of a new selector are. -/
def new (st : Store) (config : Value) : Layout :=
  ⟨config, newLists st.size (st.size + 1) (st.size + 2)⟩

/-- The lists of a new selector are new. -/
theorem le_lists_new {config : Value} {stage : Stage} (hs : stage.isSingleton = false) :
    st.size ≤ (new st config).lists stage := by
  cases stage with
  | element | id | pseudoElement => cases hs
  | styleClass => exact Nat.le_refl _
  | attr => exact Nat.le_add_right _ 1
  | pseudoClass => exact Nat.le_add_right _ 2

/-- The list of a stage, as it is put into a store. -/
def heldNode (s : Compound) (stage : Stage) : Node := .list ((s.held stage).map Value.str)

/-- A store with the lists of a selector. -/
def withLists (st : Store) (s : Compound) : Store :=
  let st₁ := (st.alloc (heldNode s .styleClass)).2
  let st₂ := (st₁.alloc (heldNode s .attr)).2
  (st₂.alloc (heldNode s .pseudoClass)).2

/-- A store with a selector that holds fragments already. -/
def withHeld (st : Store) (config latest : Value) (s : Compound) : Store :=
  ((withLists st s).alloc (.record .selector (.own ((new st config).fieldsWith latest s)))).2

/-- A store with a new selector: three empty lists and the object. -/
def withSelector (st : Store) (config : Value) : Store := withHeld st config .null (.empty {})

theorem size_withLists (st : Store) (s : Compound) : (withLists st s).size = st.size + 3 := by
  unfold withLists
  simp only [Store.size_alloc]

theorem stands_withHeld (st : Store) (config latest : Value) (s : Compound) :
    (new st config).Stands latest (withHeld st config latest s) (st.size + 3) s := by
  let st₁ := (st.alloc (heldNode s .styleClass)).2
  let st₂ := (st₁.alloc (heldNode s .attr)).2
  let st₃ := (st₂.alloc (heldNode s .pseudoClass)).2
  have h₁ : st₁.size = st.size + 1 := st.size_alloc _
  have h₂ : st₂.size = st.size + 2 := by rw [st₁.size_alloc, h₁]
  have h₃ : st₃.size = st.size + 3 := by rw [st₂.size_alloc, h₂]
  have h₀₁ : st.size < st₁.size := by omega
  have h₀₂ : st.size < st₂.size := by omega
  have h₀₃ : st.size < st₃.size := by omega
  have h₁₂ : st₁.size < st₂.size := by omega
  have h₁₃ : st₁.size < st₃.size := by omega
  have h₂₃ : st₂.size < st₃.size := by omega
  refine ⟨?_, fun stage hs => ?_, fun _ _ => newLists_injective (Nat.lt_succ_self _)
    (Nat.lt_succ_self _)⟩
  · show Store.node (st₃.alloc _).2 (st.size + 3) = _
    rw [← h₃, Store.node_alloc_self]
  · cases stage with
    | element | id | pseudoElement => cases hs
    | styleClass =>
      show Store.node (st₃.alloc _).2 st.size = heldNode s .styleClass
      rw [Store.node_alloc _ _ _ h₀₃, Store.node_alloc _ _ _ h₀₂, Store.node_alloc _ _ _ h₀₁,
        Store.node_alloc_self]
    | attr =>
      show Store.node (st₃.alloc _).2 (st.size + 1) = heldNode s .attr
      rw [← h₁, Store.node_alloc _ _ _ h₁₃, Store.node_alloc _ _ _ h₁₂, Store.node_alloc_self]
    | pseudoClass =>
      show Store.node (st₃.alloc _).2 (st.size + 2) = heldNode s .pseudoClass
      rw [← h₂, Store.node_alloc _ _ _ h₂₃, Store.node_alloc_self]

/-- A new selector holds nothing, whatever its configuration says. -/
theorem represents_withSelector (st : Store) (c : Value) (config : Config) :
    (new st c).Represents (withSelector st c) (st.size + 3) (.empty config) :=
  stands_withHeld st c .null (.empty config)

theorem run_newSelector {config c : Value} {w w' : World}
    (hc : (configOr config).run w = (.ok c, w')) :
    (newSelector config).run w
      = (.ok (.ref (w'.store.size + 3)), { w' with store := withSelector w'.store c }) := by
  unfold newSelector
  simp only [run_bind, hc, run_alloc, Store.place_alloc, Store.size_alloc]
  rfl

theorem exists_newSelector (config : Value) (w : World) :
    ∃ l r st, (newSelector config).run w = (.ok (.ref r), { w with store := st }) ∧
      Represents l st r (.empty {}) := by
  obtain ⟨c, st, hc⟩ := run_configOr config w
  exact ⟨new st c, st.size + 3, withSelector st c, run_newSelector hc,
    represents_withSelector st c {}⟩

end Layout

/-! ### reading the places -/

namespace Store

/-- The values in the place of a stage, each with the stage. -/
def slot (st : Store) (v : Value) (stage : Stage) : Except Fault (List (Stage × Value)) := do
  let found ← st.lookup v (Name.slot stage)
  let values ←
    if stage.isSingleton then .ok (if found = .null then [] else [found]) else st.items found
  .ok (values.map (Prod.mk stage))

/-- The values in all places, in the order of the stages. -/
def slots (st : Store) (v : Value) : Except Fault (List (Stage × Value)) :=
  (Stage.all.mapM (st.slot v)).map List.flatten

end Store

namespace Layout

variable {l : Layout} {s : Compound} {st : Store} {r : Ref} {latest : Value}

theorem Stands.slot_eq (h : l.Stands latest st r s) (stage : Stage) :
    st.slot (.ref r) stage = .ok ((s.held stage).map fun t => (stage, Value.str t)) := by
  unfold Store.slot
  rw [h.lookup_slot, slotValue]
  cases hs : stage.isSingleton with
  | false =>
    have hitems : st.items (.ref (l.lists stage)) = .ok ((s.held stage).map Value.str) := by
      simp only [Store.items, h.list stage hs]
    show (st.items (.ref (l.lists stage)) >>= fun values => _) = _
    rw [hitems]
    show Except.ok _ = _
    rw [List.map_map]
    rfl
  | true =>
    have hheld : s.held stage = (s.occupant stage).toList := by
      cases stage <;> first | rfl | cases hs
    show Except.ok _ = _
    rw [hheld]
    cases s.occupant stage <;> rfl

theorem Stands.slots_eq (h : l.Stands latest st r s) :
    st.slots (.ref r) = .ok (s.fragments.map fun f => (f.stage, Value.str f.value)) := by
  have hslot : st.slot (.ref r) = fun stage =>
      .ok ((s.held stage).map fun t => (stage, Value.str t)) := funext h.slot_eq
  unfold Store.slots
  rw [hslot]
  show Except.ok _ = Except.ok _
  rw [Compound.fragments, List.map_flatMap]
  simp only [List.map_map]
  rfl

end Layout

/-! ### a list of calls -/

/-- What has come of a list of calls: the fragments that were accepted, and the store. -/
structure Calls where
  accepted : List Fragment := []
  store : Store

namespace Calls

/-- What one more call answers, and the store and the log after it. -/
def answer (run : Calls) (v : Value) (f : Fragment) : Except Fault Value × World :=
  (append v f.stage f.value).run { store := run.store }

/-- One more call; a fragment that is not accepted is passed over. -/
def next (v : Value) (run : Calls) (f : Fragment) : Calls :=
  match run.answer v f with
  | (.ok _, w) => ⟨run.accepted ++ [f], w.store⟩
  | (.error _, w) => ⟨run.accepted, w.store⟩

def after (v : Value) (st : Store) (calls : List Fragment) : Calls :=
  calls.foldl (next v) { store := st }

/-- The selector stands for one that holds the accepted fragments. -/
def Tracks (run : Calls) (v : Value) : Prop :=
  ∃ l r s, v = .ref r ∧ Layout.Represents l run.store r s ∧ s.Consistent ∧
    s.fragments = run.accepted

variable {run : Calls} {v : Value}

/-- What a call answers, by the fragments that were accepted before. -/
theorem Tracks.answer_eq (h : run.Tracks v) (f : Fragment) :
    (∃ latest, run.accepted.getLast?.map Fragment.stage = some latest ∧
      Passed run.accepted f.stage ∧
      run.answer v f = (.error (.rejected (.outOfOrder f.stage latest)),
        ⟨run.store, [(Rejection.outOfOrder f.stage latest).note]⟩)) ∨
    (¬ Passed run.accepted f.stage ∧ Taken run.accepted f.stage ∧
      run.answer v f = (.error (.rejected (.duplicate f.stage)),
        ⟨run.store, [(Rejection.duplicate f.stage).note]⟩)) ∨
    (¬ Passed run.accepted f.stage ∧ ¬ Taken run.accepted f.stage ∧
      ∃ st, run.answer v f = (.ok v, ⟨st, []⟩) ∧ Tracks ⟨run.accepted ++ [f], st⟩ v) := by
  obtain ⟨l, r, s, rfl, hrep, hs, hfr⟩ := h
  have hrun := hrep.run_append [] f.stage f.value
  rw [← hfr]
  cases ha : s.append f.stage f.value with
  | error rejection =>
    rw [ha] at hrun
    have hr := (Compound.append_eq_error_iff _ _ _ _).mp ha
    rcases (hs.rejection?_eq_some_iff _ _).mp hr with ⟨latest, hl, hlt, rfl⟩ | ⟨hp, ht, rfl⟩
    · refine Or.inl ⟨latest, ?_, (hs.passed_iff _).mpr ⟨latest, hl, hlt⟩, hrun⟩
      rw [← hs, hl]
    · exact Or.inr (Or.inl ⟨hp, ht, hrun⟩)
  | ok s' =>
    rw [ha] at hrun
    obtain ⟨st, hrun, hrep'⟩ := hrun
    obtain ⟨hs', hfr'⟩ := Compound.append_consistent hs ha
    have hr := ((Compound.append_eq_ok_iff _ _ _ _).mp ha).1
    obtain ⟨hp, ht⟩ := (hs.rejection?_eq_none_iff _).mp hr
    exact Or.inr (Or.inr ⟨hp, ht, st, hrun, l, r, s', rfl, hrep', hs', hfr'⟩)

theorem Tracks.next (h : run.Tracks v) (f : Fragment) : (run.next v f).Tracks v := by
  unfold Calls.next
  rcases h.answer_eq f with ⟨_, _, _, ha⟩ | ⟨_, _, ha⟩ | ⟨_, _, st, ha, ht⟩
  · rw [ha]
    exact h
  · rw [ha]
    exact h
  · rw [ha]
    exact ht

/-- What one more call keeps, all calls keep. -/
theorem after_of_next {P : Calls → Prop} (hnext : ∀ run f, P run → P (Calls.next v run f))
    {st : Store} (h : P { store := st }) (calls : List Fragment) : P (after v st calls) := by
  have hall : ∀ run : Calls, P run → P (calls.foldl (Calls.next v) run) := by
    induction calls with
    | nil => exact fun _ h => h
    | cons f calls ih => exact fun run h => ih _ (hnext run f h)
  exact hall _ h

theorem Tracks.after {st : Store} (h : Tracks { store := st } v) (calls : List Fragment) :
    (after v st calls).Tracks v :=
  after_of_next (P := fun run => run.Tracks v) (fun _ f h => h.next f) h calls

theorem taken_iff {held : List Fragment} {stage : Stage} :
    Taken held stage ↔ stage ∈ [Stage.element, .id, .pseudoElement] ∧
      ∃ g ∈ held, g.stage = stage := by
  have hs : stage.isSingleton = true ↔ stage ∈ [Stage.element, .id, .pseudoElement] := by
    cases stage <;> decide
  rw [Taken, hs]

/-- What a selector answers, in which case, and what the call leaves behind. -/
theorem Tracks.verdict (h : run.Tracks v) (f : Fragment) :
    ((∃ latest, (run.answer v f).1 = .error (.rejected (.outOfOrder f.stage latest))) ↔
      Passed run.accepted f.stage) ∧
    ((run.answer v f).1 = .error (.rejected (.duplicate f.stage)) ↔
      ¬ Passed run.accepted f.stage ∧ Taken run.accepted f.stage) ∧
    ((run.answer v f).1 = .ok v ↔
      ¬ Passed run.accepted f.stage ∧ ¬ Taken run.accepted f.stage) ∧
    ((run.answer v f).1 = .ok v → (run.answer v f).2.notes = []) ∧
    ((run.answer v f).1 ≠ .ok v → (run.answer v f).2.store = run.store ∧
      ((∃ latest, run.accepted.getLast?.map Fragment.stage = some latest ∧
        (run.answer v f).1 = .error (.rejected (.outOfOrder f.stage latest)) ∧
        (run.answer v f).2.notes = [(Rejection.outOfOrder f.stage latest).note]) ∨
      ((run.answer v f).1 = .error (.rejected (.duplicate f.stage)) ∧
        (run.answer v f).2.notes = [(Rejection.duplicate f.stage).note]))) := by
  rcases h.answer_eq f with ⟨latest, hl, hp, ha⟩ | ⟨hp, ht, ha⟩ | ⟨hp, ht, _, ha, _⟩
  · rw [ha]
    refine ⟨⟨fun _ => hp, fun _ => ⟨latest, rfl⟩⟩, ?_, ?_, ?_, fun _ => ?_⟩
    · simp [hp]
    · simp [hp]
    · simp
    · exact ⟨rfl, Or.inl ⟨latest, hl, rfl, rfl⟩⟩
  · rw [ha]
    refine ⟨?_, ⟨fun _ => ⟨hp, ht⟩, fun _ => rfl⟩, ?_, ?_, fun _ => ?_⟩
    · simp [hp]
    · simp [ht]
    · simp
    · exact ⟨rfl, Or.inr ⟨rfl, rfl⟩⟩
  · rw [ha]
    refine ⟨?_, ?_, ⟨fun _ => ⟨hp, ht⟩, fun _ => rfl⟩, fun _ => rfl, fun hne => absurd rfl hne⟩
    · simp [hp]
    · simp [ht]

theorem Tracks.slots_eq (h : run.Tracks v) :
    run.store.slots v = .ok (run.accepted.map fun g => (g.stage, Value.str g.value)) := by
  obtain ⟨l, r, s, rfl, hrep, _, hfr⟩ := h
  rw [hrep.slots_eq, hfr]

/-- **The history decides.** What a fresh selector answers after any calls, and what it notes then,
depends on the accepted fragments alone; its places hold these fragments in the order of the calls,
and a call that fails changes nothing. -/
theorem history (config : Value) (w : World) :
    ∃ v st, (newSelector config).run w = (.ok v, { w with store := st }) ∧
      ∀ (calls : List Fragment) (f : Fragment),
        let run := after v st calls
        let outcome := (run.answer v f).1
        let world := (run.answer v f).2
        ((∃ latest, outcome = .error (.rejected (.outOfOrder f.stage latest))) ↔
          ∃ g ∈ run.accepted, f.stage < g.stage) ∧
        (outcome = .error (.rejected (.duplicate f.stage)) ↔
          (¬ ∃ g ∈ run.accepted, f.stage < g.stage) ∧
            f.stage ∈ [Stage.element, .id, .pseudoElement] ∧
            ∃ g ∈ run.accepted, g.stage = f.stage) ∧
        (outcome = .ok v ↔
          (¬ ∃ g ∈ run.accepted, f.stage < g.stage) ∧
            ¬ (f.stage ∈ [Stage.element, .id, .pseudoElement] ∧
              ∃ g ∈ run.accepted, g.stage = f.stage)) ∧
        (outcome = .ok v → world.notes = []) ∧
        (outcome ≠ .ok v → world.store = run.store ∧
          ((∃ latest, run.accepted.getLast?.map Fragment.stage = some latest ∧
            outcome = .error (.rejected (.outOfOrder f.stage latest)) ∧
            world.notes = [("Rejected " : Text) ++ f.stage.label ++ (" fragment after " : Text)
              ++ latest.label]) ∨
          (outcome = .error (.rejected (.duplicate f.stage)) ∧
            world.notes = [("Rejected second " : Text) ++ f.stage.label
              ++ (" fragment" : Text)]))) ∧
        run.store.slots v = .ok (run.accepted.map fun g => (g.stage, Value.str g.value)) := by
  obtain ⟨l, r, st, hnew, hrep⟩ := Layout.exists_newSelector config w
  have hstart : Tracks { store := st } (.ref r) :=
    ⟨l, r, _, rfl, hrep, Compound.consistent_empty _, Compound.fragments_empty _⟩
  refine ⟨.ref r, st, hnew, fun calls f => ?_⟩
  have htracks := hstart.after calls
  obtain ⟨horder, hduplicate, hok, hquiet, hfail⟩ := htracks.verdict f
  rw [taken_iff] at hduplicate hok
  exact ⟨horder, hduplicate, hok, hquiet, hfail, htracks.slots_eq⟩

end Calls

end SelectorForge
