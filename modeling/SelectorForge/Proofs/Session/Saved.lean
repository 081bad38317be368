import SelectorForge.Proofs.Session.Construction
import SelectorForge.Proofs.Session.Twins

/-!
# A selector that is saved and revived

A selector is saved as the object of its attributes: its configuration as an object, its latest
stage as a number, and its fragments as they are. So what is revived from its text holds the same
fragments in lists of its own, with a table for its configuration and a number for its latest stage.

* `Compound.members`          the members of the document;
* `Layout.Represents.depicts` this is the document of the object;
* `Compound.ofText_members`   what its text is read as;
* `Compound.revive_members`   what is revived from it;
* `Twins.revived`             the saved selector and the revived one, with whatever is appended to
                              both.
-/

namespace SelectorForge

open Effect Session

namespace Compound

variable {s : Compound}

/-! ### the document -/

/-- What stands in the place of a stage. -/
def slotDocument (s : Compound) (stage : Stage) : Json :=
  if stage.isSingleton then ((s.occupant stage).map Json.str).getD .null
  else .arr ((s.held stage).map Json.str)

def stageDocument (s : Compound) : Json :=
  (s.stage.map fun stage => Json.int stage.ordinal).getD .null

def configDocument (config : Config) : Json :=
  .obj [(Name.separator, .str config.separator), (Name.pad, .bool config.pad)]

/-- The members of the document, in the order of the attributes. -/
def members (s : Compound) (config : Config) : List (Text × Json) :=
  (Name.ownConfig, configDocument config) :: (Name.ownStage, s.stageDocument)
    :: Stage.all.map fun stage => (Name.slot stage, s.slotDocument stage)

/-- No fragment has a surrogate. -/
def SurrogateFree (s : Compound) : Prop :=
  ∀ stage, ∀ t ∈ s.held stage, Json.SurrogateFree t

theorem SurrogateFree.attempt (h : s.SurrogateFree) {target : Stage} {value : Text}
    (hvalue : Json.SurrogateFree value) : (s.attempt target value).SurrogateFree := by
  unfold Compound.attempt
  cases ha : s.append target value with
  | error rejection => exact h
  | ok t =>
    obtain ⟨-, rfl⟩ := (append_eq_ok_iff _ _ _ _).mp ha
    intro stage t ht
    by_cases hs : stage = target
    · subst hs
      have hmem : t ∈ s.held stage ∨ t = value := by
        cases stage <;> simp [held, place] at ht ⊢ <;> tauto
      rcases hmem with hmem | rfl
      · exact h stage t hmem
      · exact hvalue
    · rw [held_place_of_ne s hs] at ht
      exact h stage t ht

theorem SurrogateFree.attemptAll (h : s.SurrogateFree) {fs : List Fragment}
    (hfs : ∀ f ∈ fs, Json.SurrogateFree f.value) : (s.attemptAll fs).SurrogateFree := by
  induction fs generalizing s with
  | nil => exact h
  | cons f fs ih =>
    obtain ⟨hf, hfs⟩ := List.forall_mem_cons.mp hfs
    exact ih (h.attempt hf) hfs

theorem surrogateFree_empty (config : Config) : (empty config).SurrogateFree := by
  intro stage t ht
  cases stage <;> cases ht

/-! ### what the text is read as -/

theorem SurrogateFree.exact_slotDocument (h : s.SurrogateFree) (stage : Stage) :
    (s.slotDocument stage).Exact := by
  have hstr : ∀ t ∈ s.held stage, (Json.str t).Exact := fun t ht =>
    .str (Json.stable_of_surrogateFree (h stage t ht))
  unfold slotDocument
  split
  · cases ho : s.occupant stage with
    | none => exact .null
    | some t => exact hstr t (by cases stage <;> simp_all [occupant, held])
  · refine .arr fun d hd => ?_
    obtain ⟨t, ht, rfl⟩ := List.mem_map.mp hd
    exact hstr t ht

theorem exact_stageDocument (s : Compound) : s.stageDocument.Exact := by
  unfold stageDocument
  cases s.stage with
  | none => exact .null
  | some stage => exact .int (Store.fitsDigits_ordinal stage)

/-- A separator may have surrogates that are joined when it is read. -/
theorem spells_configDocument (config : Config) :
    Json.Spells (configDocument config).render
      (configDocument { config with separator := Json.rejoined config.separator }) := by
  have hname : ∀ name : String, Json.SpellsName (Json.literal name ++ [CodePoint.colon]) name :=
    fun name => Json.spellsName_literal (Json.stable_ofString name)
  refine Json.spells_members (.cons ⟨hname _, ?_⟩ (.cons ⟨hname _, ?_⟩ .nil))
  · rw [Json.render_str]
    exact .string (Json.spellsString_rejoined _)
  · exact (Json.Exact.bool _).spells

theorem stable_slot (stage : Stage) : Json.Stable (Name.slot stage) := by
  cases stage <;> exact Json.stable_ofString _

/-- The configuration as it is read back. -/
def readConfig (s : Compound) : Config :=
  { s.config with separator := Json.rejoined s.config.separator }

theorem spells_members (h : s.SurrogateFree) :
    Json.Spells (Json.obj (s.members s.config)).render (.obj (s.members s.readConfig)) := by
  have hslots : List.Forall₂ Json.SpellsMember
      (Stage.all.map fun stage => (Name.slot stage, s.slotDocument stage))
      (Stage.all.map fun stage => (Name.slot stage, s.slotDocument stage)) :=
    List.forall₂_same.mpr fun m hm => by
      obtain ⟨stage, -, rfl⟩ := List.mem_map.mp hm
      exact ⟨Json.spellsName_literal (stable_slot stage), (h.exact_slotDocument stage).spells⟩
  exact Json.spells_members (.cons
    ⟨Json.spellsName_literal (Json.stable_ofString _), spells_configDocument s.config⟩ (.cons
      ⟨Json.spellsName_literal (Json.stable_ofString _), s.exact_stageDocument.spells⟩ hslots))

theorem distinct_members (s : Compound) (config : Config) :
    (Json.obj (s.members config)).Distinct := by
  have hslot : ∀ stage, (s.slotDocument stage).Distinct := fun stage => by
    unfold slotDocument
    split
    · cases s.occupant stage with
      | none => exact .null
      | some t => exact .str t
    · refine .arr fun d hd => ?_
      obtain ⟨t, -, rfl⟩ := List.mem_map.mp hd
      exact .str t
  have hstage : s.stageDocument.Distinct := by
    unfold stageDocument
    cases s.stage with
    | none => exact .null
    | some stage => exact .int _
  have hconfig : (configDocument config).Distinct :=
    .obj (by show List.Nodup [Name.separator, Name.pad]; decide) (List.forall_mem_cons.mpr
      ⟨.str _, List.forall_mem_singleton.mpr (.bool _)⟩)
  refine .obj ?_ (List.forall_mem_cons.mpr ⟨hconfig, List.forall_mem_cons.mpr ⟨hstage, ?_⟩⟩)
  · show List.Nodup (Name.ownConfig :: Name.ownStage :: Stage.all.map Name.slot)
    decide
  · intro m hm
    obtain ⟨stage, -, rfl⟩ := List.mem_map.mp hm
    exact hslot stage

/-- **The text of a selector is read as its document**, but for the separator. -/
theorem ofText_members (h : s.SurrogateFree) :
    Json.ofText (Json.obj (s.members s.config)).render = .ok (.obj (s.members s.readConfig)) := by
  rw [Json.ofText_of_spells (spells_members h), (distinct_members s _).merged_eq]

end Compound

namespace Layout

variable {l : Layout} {st : Store} {r : Ref} {s : Compound}

/-! ### the object and its document -/

theorem depicts_latestValue (st : Store) (s : Compound) :
    st.Depicts (latestValue s.stage) s.stageDocument := by
  unfold Compound.stageDocument
  cases s.stage with
  | none => exact .scalar .null
  | some stage => exact .scalar (.stage stage)

theorem Represents.depicts_slotValue (h : l.Represents st r s) (stage : Stage) :
    st.Depicts (l.slotValue s stage) (s.slotDocument stage) := by
  unfold slotValue Compound.slotDocument
  cases hs : stage.isSingleton with
  | true =>
    cases s.occupant stage with
    | none => exact .scalar .null
    | some t => exact .scalar (.str t)
  | false =>
    have hitems : ∀ ts : List Text, st.DepictsItems (ts.map Value.str) (ts.map Json.str) := by
      intro ts
      induction ts with
      | nil => exact .nil
      | cons t ts ih => exact .cons (.scalar (.str t)) ih
    exact .items (st.content_eq_items_iff.mpr (Or.inl (h.list stage hs))) (hitems _)

theorem depicts_configNode {q : Ref} {config : Config} (hq : st.node q = configNode config) :
    st.Depicts (.ref q) (Compound.configDocument config) :=
  .entries (st.content_eq_entries_iff.mpr (Or.inr ⟨_, _, hq, rfl⟩))
    (.cons (.str _) (.scalar (.str _)) (.cons (.str _) (.scalar (.bool _)) .nil))

theorem Represents.depicts_slots (h : l.Represents st r s) (stages : List Stage) :
    st.DepictsEntries
      ((stages.map fun stage => (Name.slot stage, l.slotValue s stage)).map fun (name, v) =>
        (.str name, v))
      (stages.map fun stage => (Name.slot stage, s.slotDocument stage)) := by
  induction stages with
  | nil => exact .nil
  | cons stage stages ih => exact .cons (.str _) (h.depicts_slotValue stage) ih

/-- **The document of an object** that stands for a selector. -/
theorem Represents.depicts (h : l.Represents st r s)
    (hconfig : st.Depicts l.config (Compound.configDocument s.config)) :
    st.Depicts (.ref r) (.obj (s.members s.config)) :=
  .entries (st.content_eq_entries_iff.mpr (Or.inr ⟨_, _, h.object, rfl⟩))
    (.cons (.str _) hconfig (.cons (.str _) (depicts_latestValue st s) (h.depicts_slots Stage.all)))

/-! ### the revived object -/

theorem loadItems_str (ts : List Text) (st : Store) :
    Store.loadItems (ts.map Json.str) st = (ts.map Value.str, st) := by
  induction ts with
  | nil => rfl
  | cons t ts ih =>
    rw [List.map_cons, Store.loadItems, Store.load]
    simp only [ih]
    rfl

theorem load_list (s : Compound) {stage : Stage} (hs : stage.isSingleton = false) (st : Store) :
    Store.load (s.slotDocument stage) st = st.alloc (heldNode s stage) := by
  unfold Compound.slotDocument
  rw [if_neg (by simp [hs]), Store.load, loadItems_str]
  rfl

theorem load_single (s : Compound) {stage : Stage} (hs : stage.isSingleton = true) (st : Store) :
    Store.load (s.slotDocument stage) st = (occupantValue (s.occupant stage), st) := by
  unfold Compound.slotDocument
  rw [if_pos hs]
  cases s.occupant stage <;> rfl

theorem load_stageDocument (s : Compound) (st : Store) :
    Store.load s.stageDocument st = (numberValue s.stage, st) := by
  unfold Compound.stageDocument
  cases s.stage <;> rfl

/-- The entries of the table that a configuration becomes. -/
def configEntries (config : Config) : List (Value × Value) :=
  [(.str Name.separator, .str config.separator), (.str Name.pad, .bool config.pad)]

def configTable (config : Config) : Node := .table (configEntries config)

theorem load_configDocument (config : Config) (st : Store) :
    Store.load (Compound.configDocument config) st = st.alloc (configTable config) := by
  unfold Compound.configDocument
  simp only [Store.load, Store.loadMembers]
  rfl

/-- A store with the revived selector. -/
def withRevived (st : Store) (s : Compound) : Store :=
  withHeld (st.alloc (configTable s.readConfig)).2 (.ref st.size) (numberValue s.stage) s

theorem loadMembers_members (st : Store) (s : Compound) :
    let st₁ := (st.alloc (configTable s.readConfig)).2
    Store.loadMembers (s.members s.readConfig) st
      = ((new st₁ (.ref st.size)).fieldsWith (numberValue s.stage) s, withLists st₁ s) := by
  unfold Compound.members Stage.all new
  simp only [List.map_cons, List.map_nil, Store.loadMembers, load_configDocument,
    load_stageDocument, @load_single s .element rfl, @load_single s .id rfl,
    @load_list s .styleClass rfl, @load_list s .attr rfl,
    @load_list s .pseudoClass rfl, @load_single s .pseudoElement rfl,
    Store.place_alloc, Store.size_alloc]
  rfl

/-- **What is revived from the text of a selector.** -/
theorem revive_members (st : Store) {s : Compound} {t : Text}
    (ht : Json.ofText t = .ok (.obj (s.members s.readConfig))) :
    st.revive (.record .selector) t = .ok (.ref (st.size + 4), withRevived st s) := by
  unfold Store.revive
  rw [ht]
  simp only [loadMembers_members]
  rw [← Nat.add_assoc st.size 1 3, ← st.size_alloc (configTable s.readConfig), ← size_withLists _ s]
  rfl

/-! ### both in one store -/

/-- What a new selector owns is new. -/
theorem le_of_owns_new {c : Value} {n q : Ref} (h : (new st c).Owns n q) (hn : st.size ≤ n) :
    st.size ≤ q := by
  rcases h with rfl | ⟨stage, hs, rfl⟩
  · exact hn
  · exact le_lists_new hs

/-- The old selector and the revived one stand side by side. -/
theorem Represents.joined (h : l.Represents st r s) (hplain : Plain st) :
    Twins.Joined { store := withRevived st s } r (st.size + 4) s l
      (new (st.alloc (configTable s.readConfig)).2 (.ref st.size)) where
  first := h.extend ((Store.extends_alloc st _).trans (extends_withHeld _ _ _ s))
  second := by
    have hstands := stands_withHeld (st.alloc (configTable s.readConfig)).2 (.ref st.size)
      (numberValue s.stage) s
    rwa [Store.size_alloc] at hstands
  apart q hq hq' := by
    have hlt : q < st.size := by
      rcases hq with rfl | ⟨stage, hs, rfl⟩
      · exact h.lt_size
      · exact h.list_lt_size hs
    have hle := le_of_owns_new hq' (by rw [Store.size_alloc]; exact Nat.le_add_right _ 3)
    rw [Store.size_alloc] at hle
    exact Nat.not_lt.mpr (Nat.le_of_succ_le hle) hlt
  taken := rfl
  plain := hplain

/-! ### a selector from its making on -/

/-- A configuration as it is made, or nothing in its place. -/
def Provides (st : Store) (v : Value) (config : Config) : Prop :=
  (v = .null ∧ config = {}) ∨ ∃ q, v = .ref q ∧ st.node q = configNode config

/-- A new selector and its configuration. -/
theorem exists_new {w : World} {v : Value} {config : Config} (h : Provides w.store v config)
    (hplain : Plain w.store) :
    ∃ (l : Layout) (r : Ref) (st : Store) (q : Ref),
      (newSelector v).run w = (.ok (.ref r), { w with store := st }) ∧
      l.Represents st r (.empty config) ∧ l.config = .ref q ∧ st.node q = configNode config ∧
      Plain st := by
  have hconfig : ∃ q st, (configOr v).run w = (.ok (.ref q), { w with store := st }) ∧
      st.node q = configNode config ∧ Plain st := by
    rcases h with ⟨rfl, rfl⟩ | ⟨q, rfl, hq⟩
    · exact ⟨w.store.size, _, rfl, w.store.node_alloc_self _, hplain⟩
    · exact ⟨q, w.store, run_configOr_of_configures ⟨q, _, rfl, hq, rfl, rfl⟩, hq, hplain⟩
  obtain ⟨q, st, hrun, hq, hst⟩ := hconfig
  exact ⟨new st (.ref q), st.size + 3, withSelector st (.ref q), q, run_newSelector hrun,
    represents_withSelector st _ config, rfl,
    (extends_withSelector st _).node_eq_of_ne hq Node.noConfusion, hst⟩

/-- There is no stage and no configuration in a selector, but a number and a table. -/
def Bare (st : Store) (v : Value) : Prop :=
  ∃ latest q es, st.lookup v Name.ownStage = .ok latest ∧
    (latest = .null ∨ ∃ n, latest = .int n) ∧
    st.lookup v Name.ownConfig = .ok (.ref q) ∧ st.node q = .table es

theorem bare_withRevived (st : Store) (s : Compound) :
    Bare (withRevived st s) (.ref (st.size + 4)) := by
  have h := stands_withHeld (st.alloc (configTable s.readConfig)).2 (.ref st.size)
    (numberValue s.stage) s
  rw [Store.size_alloc] at h
  refine ⟨numberValue s.stage, st.size, configEntries s.readConfig, h.lookup_ownStage, ?_, ?_, ?_⟩
  · cases s.stage with
    | none => exact Or.inl rfl
    | some stage => exact Or.inr ⟨_, rfl⟩
  · show Store.lookup (withHeld _ _ _ s) _ _ = _
    simp only [Store.lookup, h.object]
    rfl
  · exact (extends_withHeld _ _ _ s).node_eq_of_ne (st.node_alloc_self _) Node.noConfusion

end Layout

namespace Twins

open Layout

/-- **A revived selector keeps the order.** A new selector to which texts without surrogates are
appended, some of them in vain, has a text, and a selector is revived from it. From then on, after
whatever calls to both, they have taken the same fragments and hold them, at the same latest stage;
and a further call is taken by both, or rejected by both without a change, for the same reason. -/
theorem revived {w : World} {v : Value} {config : Config} (h : Provides w.store v config)
    (hplain : Plain w.store) {fs : List Fragment} (hfs : ∀ f ∈ fs, Json.SurrogateFree f.value) :
    ∃ u st, (newSelector v).run w = (.ok u, { w with store := st }) ∧
      let saved := (Calls.after u st fs).store
      ∃ t u' st', saved.toJson u = .ok t ∧
        saved.revive (.record .selector) t = .ok (u', st') ∧ Bare st' u' ∧
        ∀ (calls : List Fragment) (f : Fragment),
          let run := after u u' st' calls
          run.first = run.second ∧ Even run.store u u' ∧
            Answers run.store u u' run.numbered (run.answer u u' f) := by
  obtain ⟨l, r, st, q, hrun, hrep, hl, hq, hst⟩ := exists_new h hplain
  obtain ⟨hafter, hc⟩ := hrep.after fs
  let saved := (Calls.after (.ref r) st fs).store
  let s := (Compound.empty config).attemptAll fs
  have hs : s.SurrogateFree := (Compound.surrogateFree_empty config).attemptAll hfs
  have hconfig : saved.Depicts l.config (Compound.configDocument s.config) := by
    have hq' : saved.node q = configNode config := hrep.node_record hc hq Kind.noConfusion
    rw [hl, Compound.config_attemptAll]
    exact depicts_configNode hq'
  refine ⟨.ref r, st, hrun, _, .ref (saved.size + 4), withRevived saved s,
    (hafter.depicts hconfig).toJson, revive_members saved (Compound.ofText_members hs),
    bare_withRevived saved s, fun calls f => ?_⟩
  have hjoined := (hafter.joined (hc.plain hst)).after calls
  exact ⟨hjoined.taken, hjoined.even, (hjoined.step f).1⟩

/-- A new selector, as it is made where there was nothing. -/
def newStore : Store := withSelector (Store.alloc {} (configNode {})).2 (.ref 0)

/-- It has taken an id. -/
def savedId : Store := (Calls.after (.ref 4) newStore [⟨.id, "b"⟩]).store

def onlyId : Compound := (Compound.empty {}).attempt .id "b"

/-- An element comes too late: at first the revived selector has no label for its latest stage, and
after a class it has one. -/
theorem revived_afterId : ∃ t u' st', savedId.toJson (.ref 4) = .ok t ∧
    savedId.revive (.record .selector) t = .ok (u', st') ∧
    let late : Fragment := ⟨.element, "a"⟩
    let before := (after (.ref 4) u' st' []).answer (.ref 4) u' late
    let later := (after (.ref 4) u' st' [⟨.styleClass, "c"⟩]).answer (.ref 4) u' late
    before.1.1 = .error (.rejected (.outOfOrder .element .id)) ∧
      before.2.1 = .error (.noAttribute "int" Name.label) ∧
      later.1.1 = .error (.rejected (.outOfOrder .element .styleClass)) ∧
      later.2.1 = .error (.rejected (.outOfOrder .element .styleClass)) := by
  have hid : ∀ f ∈ [(⟨.id, "b"⟩ : Fragment)], Json.SurrogateFree f.value :=
    List.forall_mem_singleton.mpr (Json.surrogateFree_ofString "b")
  obtain ⟨u, st, hnew, t, u', st', hjson, hrevive, -, hall⟩ :=
    revived (w := {}) (Or.inl ⟨rfl, rfl⟩) (fun _ => rfl) hid
  have hmade : (newSelector .null).run {} = (.ok (.ref 4), ⟨newStore, []⟩) := rfl
  obtain ⟨rfl, rfl⟩ : u = .ref 4 ∧ st = newStore := by
    rw [hmade] at hnew
    cases hnew
    exact ⟨rfl, rfl⟩
  -- with the text and the revived selector at hand, what the saved one answers is computed
  have htext : savedId.toJson (.ref 4) = .ok (Json.obj (onlyId.members onlyId.config)).render := by
    decide +kernel
  obtain rfl := Except.ok.inj (hjson.symm.trans htext)
  have hfree : onlyId.SurrogateFree := (Compound.surrogateFree_empty {}).attemptAll hid
  have hrevived := revive_members savedId (Compound.ofText_members hfree)
  obtain ⟨rfl, rfl⟩ := Prod.mk.inj (Except.ok.inj (hrevive.symm.trans hrevived))
  refine ⟨_, _, _, hjson, hrevive, ?_⟩
  intro late before later
  have hbefore : before.1.1 = .error (.rejected (.outOfOrder .element .id)) := by decide +kernel
  have hlater : later.1.1 = .error (.rejected (.outOfOrder .element .styleClass)) := by
    decide +kernel
  exact ⟨hbefore, (hall [] late).2.2.second_of_outOfOrder hbefore, hlater,
    (hall [_] late).2.2.second_of_outOfOrder hlater⟩

end Twins

end SelectorForge
