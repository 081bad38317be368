import SelectorForge.Proofs.Store.Obedience
import SelectorForge.Session.Recipe

/-!
# Making values obeys a policy

What a recipe makes is new, or it stands under a name, or it is the standard builder. So the values
of recipes are admitted wherever the names and the standard builder are:

* `Policy.load_made`     the value of a document;
* `Policy.revive_made`   a revived object;
* `Policy.make_obeys`    the value of a recipe.
-/

namespace SelectorForge

open Effect

/-! ### members and entries -/

namespace Store

variable {st : Store}

theorem mem_of_mem_insertMember {members members' : List Value} {v u : Value}
    (h : st.insertMember members v = .ok members') (hu : u ∈ members') : u ∈ members ∨ u = v := by
  unfold insertMember at h
  simp only [bind, Except.bind] at h
  split at h
  · cases h
  · split at h
    · cases h
    · split at h
      · cases h
        exact Or.inl hu
      · cases h
        exact (List.mem_append.mp hu).imp_right List.mem_singleton.mp

theorem mem_values_putEntry {key value u : Value} {entries entries' : List (Value × Value)}
    (h : st.putEntry key value entries = .ok entries') (hu : u ∈ entryValues entries') :
    u = key ∨ u = value ∨ u ∈ entryValues entries := by
  induction entries generalizing entries' with
  | nil =>
    cases h
    simpa [entryValues] using hu
  | cons entry rest ih =>
    obtain ⟨k, v⟩ := entry
    unfold putEntry at h
    simp only [bind, Except.bind] at h
    split at h
    · cases h
    · split at h
      · cases h
        rw [entryValues_cons, List.mem_cons, List.mem_cons] at hu
        rw [entryValues_cons, List.mem_cons, List.mem_cons]
        rcases hu with hu | hu | hu
        · exact Or.inr (Or.inr (Or.inl hu))
        · exact Or.inr (Or.inl hu)
        · exact Or.inr (Or.inr (Or.inr (Or.inr hu)))
      · split at h
        · cases h
        · next rest' hrest =>
          cases h
          rw [entryValues_cons, List.mem_cons, List.mem_cons] at hu
          rw [entryValues_cons, List.mem_cons, List.mem_cons]
          rcases hu with hu | hu | hu
          · exact Or.inr (Or.inr (Or.inl hu))
          · exact Or.inr (Or.inr (Or.inr (Or.inl hu)))
          · exact (ih hrest hu).imp_right (Or.imp_right fun hu => Or.inr (Or.inr hu))

theorem mem_values_insertEntry {key value u : Value} {entries entries' : List (Value × Value)}
    (h : st.insertEntry entries key value = .ok entries') (hu : u ∈ entryValues entries') :
    u = key ∨ u = value ∨ u ∈ entryValues entries := by
  unfold insertEntry at h
  simp only [bind, Except.bind] at h
  split at h
  · cases h
  · exact mem_values_putEntry h hu

/-! ### the order of members -/

/-- The members in these places are among the given ones. -/
def Within (members : List Worded) (places : Places) : Prop :=
  ∀ member, some member ∈ places → member ∈ members

theorem within_replicate (members : List Worded) (n : Nat) :
    Within members (List.replicate n none) := fun _ h => by
  cases List.eq_of_mem_replicate h

theorem Within.settle {members : List Worded} {places : Places} {member : Worded}
    (h : Within members places) (hm : member ∈ members) : Within members (settle places member) := by
  intro other hother
  rcases List.mem_or_eq_of_mem_set hother with hother | hother
  · exact h other hother
  · rw [Option.some.inj hother]
    exact hm

theorem Within.foldl {members : List Worded} {f : Places → Worded → Places}
    (hf : ∀ {places member}, Within members places → member ∈ members →
      Within members (f places member))
    {ms : List Worded} (hms : ∀ m ∈ ms, m ∈ members) {places : Places}
    (h : Within members places) : Within members (ms.foldl f places) := by
  induction ms generalizing places with
  | nil => exact h
  | cons m ms ih =>
    obtain ⟨hm, hms⟩ := List.forall_mem_cons.mp hms
    exact ih hms (hf h hm)

theorem Within.takeIn {members : List Worded} {places : Places} {member : Worded}
    (h : Within members places) (hm : member ∈ members) : Within members (takeIn places member) := by
  have hs := h.settle hm
  unfold Store.takeIn
  simp only
  split
  · exact hs
  · refine Within.foldl Within.settle (fun m hm => hs m ?_) (within_replicate _ _)
    obtain ⟨place, hplace, he⟩ := List.mem_filterMap.mp hm
    rwa [← (he : place = some m)]

theorem map_snd_worded {f : Value → Option UInt64} {members : List Value} {worded : List Worded}
    (h : members.mapM (fun v => (f v).map fun word => (word, v)) = some worded) :
    worded.map Prod.snd = members := by
  induction members generalizing worded with
  | nil =>
    cases h
    rfl
  | cons v members ih =>
    rw [List.mapM_cons] at h
    obtain ⟨first, hfirst, h⟩ := Option.bind_eq_some_iff.mp h
    obtain ⟨rest, hrest, h⟩ := Option.bind_eq_some_iff.mp h
    obtain ⟨word, _, rfl⟩ := Option.map_eq_some_iff.mp hfirst
    cases h
    rw [List.map_cons, ih hrest]

/-- Ordering members makes no new ones. -/
theorem mem_of_mem_orderedMembers {members : List Value} {v : Value}
    (h : v ∈ st.orderedMembers members) : v ∈ members := by
  unfold orderedMembers at h
  split at h
  · exact h
  · next worded hworded =>
    obtain ⟨member, hmember, rfl⟩ := List.mem_map.mp h
    obtain ⟨place, hplace, he⟩ := List.mem_filterMap.mp hmember
    have hwithin : Within worded (worded.foldl Store.takeIn (List.replicate 8 none)) :=
      Within.foldl Within.takeIn (fun _ hm => hm) (within_replicate _ _)
    rw [← map_snd_worded hworded]
    refine List.mem_map.mpr ⟨member, hwithin member ?_, rfl⟩
    rwa [← (he : place = some member)]

end Store

/-! ### what recipes bring with them -/

def Template.values : Template → List Value
  | .record kind => kind.values
  | .bare | .enumeration => []

mutual

/-- The values that stand in a recipe itself: those of the kinds of its templates. -/
def Recipe.values : Recipe → List Value
  | .list items | .tuple items | .set items => Recipe.valuesAll items
  | .table entries => Recipe.valuesEntries entries
  | .plain attributes => Recipe.valuesFields attributes
  | .point x y | .rectangle x y => x.values ++ y.values
  | .revived template _ => template.values
  | .revivedLike template _ => template.values
  | _ => []

def Recipe.valuesAll : List Recipe → List Value
  | [] => []
  | recipe :: recipes => recipe.values ++ valuesAll recipes

def Recipe.valuesEntries : List (Recipe × Recipe) → List Value
  | [] => []
  | (key, value) :: entries => key.values ++ value.values ++ valuesEntries entries

def Recipe.valuesFields : List (Text × Recipe) → List Value
  | [] => []
  | (_, value) :: fields => value.values ++ valuesFields fields

end

namespace Policy

variable {D : Policy} {st st' : Store}

/-! ### documents -/

/-- The value of a document is admitted and its store keeps the policy. -/
def Loads (D : Policy) (d : Json) : Prop :=
  ∀ st : Store, D.Holds st → D.Made st (Store.load d st).1 (Store.load d st).2

theorem loadItems_made {ds : List Json} (h : ∀ d ∈ ds, D.Loads d) (hst : D.Holds st) :
    D.Holds (Store.loadItems ds st).2 ∧ Store.Extends st (Store.loadItems ds st).2 ∧
      ∀ v ∈ (Store.loadItems ds st).1, D.Admits (Store.loadItems ds st).2 v := by
  induction ds generalizing st with
  | nil => exact ⟨hst, .refl st, fun v hv => absurd hv List.not_mem_nil⟩
  | cons d ds ih =>
    obtain ⟨hd, hds⟩ := List.forall_mem_cons.mp h
    obtain ⟨hst₁, hextends₁, hv⟩ := hd st hst
    obtain ⟨hst₂, hextends₂, hvs⟩ := ih hds hst₁
    rw [Store.loadItems]
    exact ⟨hst₂, hextends₁.trans hextends₂, List.forall_mem_cons.mpr
      ⟨D.admits_mono hextends₂.size_le hv, hvs⟩⟩

theorem loadMembers_made {ms : List (Text × Json)} (h : ∀ m ∈ ms, D.Loads m.2)
    (hst : D.Holds st) :
    D.Holds (Store.loadMembers ms st).2 ∧ Store.Extends st (Store.loadMembers ms st).2 ∧
      ∀ v ∈ (Store.loadMembers ms st).1.map Prod.snd,
        D.Admits (Store.loadMembers ms st).2 v := by
  induction ms generalizing st with
  | nil => exact ⟨hst, .refl st, fun v hv => absurd hv List.not_mem_nil⟩
  | cons m ms ih =>
    obtain ⟨name, d⟩ := m
    obtain ⟨hd, hms⟩ := List.forall_mem_cons.mp h
    obtain ⟨hst₁, hextends₁, hv⟩ := hd st hst
    obtain ⟨hst₂, hextends₂, hvs⟩ := ih hms hst₁
    rw [Store.loadMembers]
    exact ⟨hst₂, hextends₁.trans hextends₂, List.forall_mem_cons.mpr
      ⟨D.admits_mono hextends₂.size_le hv, hvs⟩⟩

theorem load_made (d : Json) : D.Loads d := by
  induction d using Json.induction with
  | null | bool | int | float | str =>
    exact fun st hst => made_self hst
      (D.admits_scalar fun _ => by rw [Store.load]; exact Value.noConfusion)
  | arr ds ih =>
    intro st hst
    obtain ⟨hst₁, hextends, hvs⟩ := loadItems_made ih hst
    obtain ⟨hst₂, hextends', hv⟩ := made_alloc hst₁ (n := .list _) hvs
    rw [Store.load]
    exact ⟨hst₂, hextends.trans hextends', hv⟩
  | obj ms ih =>
    intro st hst
    obtain ⟨hst₁, hextends, hvs⟩ := loadMembers_made ih hst
    have hall : ∀ v ∈ (Node.table ((Store.loadMembers ms st).1.map
        fun m => (.str m.1, m.2))).values, D.Admits (Store.loadMembers ms st).2 v := by
      intro v hv
      obtain ⟨entry, hentry, hv⟩ := mem_entryValues.mp hv
      obtain ⟨field, hfield, rfl⟩ := List.mem_map.mp hentry
      rcases hv with rfl | rfl
      · exact D.admits_scalar fun _ => Value.noConfusion
      · exact hvs _ (List.mem_map.mpr ⟨field, hfield, rfl⟩)
    obtain ⟨hst₂, hextends', hv⟩ := made_alloc hst₁ hall
    rw [Store.load]
    exact ⟨hst₂, hextends.trans hextends', hv⟩

theorem loadText_made (hst : D.Holds st) {t : Text} {v : Value}
    (h : st.loadText t = .ok (v, st')) : D.Made st v st' := by
  unfold Store.loadText at h
  split at h
  · next d _ =>
    have hload := load_made (D := D) d st hst
    rwa [Except.ok.inj h] at hload
  · cases h

theorem revive_made (hst : D.Holds st) {template : Template}
    (htemplate : ∀ v ∈ template.values, D.Admits st v) {t : Text} {v : Value}
    (h : st.revive template t = .ok (v, st')) : D.Made st v st' := by
  unfold Store.revive at h
  split at h
  · cases h
  · next ms _ =>
    split at h
    · next kind =>
      obtain ⟨hst₁, hextends, hvs⟩ := loadMembers_made (D := D) (fun m _ => load_made m.2) hst
      have hall : ∀ v ∈ (Node.record kind (.own (Store.loadMembers ms st).1)).values,
          D.Admits (Store.loadMembers ms st).2 v := by
        intro v hv
        rcases List.mem_append.mp hv with hv | hv
        · exact D.admits_mono hextends.size_le (htemplate v hv)
        · exact hvs v hv
      obtain ⟨hst₂, hextends', hv⟩ := made_alloc hst₁ hall
      cases h
      exact ⟨hst₂, hextends.trans hextends', hv⟩
    · cases h
    · cases h
  · cases h

theorem newError_made (hst : D.Holds st) {kind : ErrorKind} {message : Option Text} {stage v : Value}
    (hstage : D.Admits st stage)
    (h : st.newError kind (message.map Value.str).toList stage = .ok (v, st')) :
    D.Made st v st' := by
  unfold Store.newError at h
  simp only [bind, Except.bind] at h
  split at h
  · cases h
  · next text htext =>
    have hmessage : D.Admits st text := by
      refine D.admits_scalar fun r hr => ?_
      cases message <;> cases kind <;> cases htext <;> cases hr
    obtain ⟨hst₁, hextends, hv⟩ := made_alloc hst (n := .tuple [text])
      (List.forall_mem_singleton.mpr hmessage)
    have hall : ∀ u ∈ (Node.record (.error kind { arguments := some st.size })
        (.own [(Name.stage, stage)])).values, D.Admits (st.alloc (.tuple [text])).2 u :=
      List.forall_mem_cons.mpr ⟨hv, List.forall_mem_singleton.mpr
        (D.admits_mono hextends.size_le hstage)⟩
    obtain ⟨hst₂, hextends', hv'⟩ := made_alloc hst₁ hall
    cases h
    exact ⟨hst₂, hextends.trans hextends', hv'⟩

/-! ### recipes -/

theorem Made.obeys {D : Policy} {f : Store → Except Fault (Value × Store)} (hst : D.Holds st)
    (h : ∀ v st', f st = .ok (v, st') → D.Made st v st') :
    D.Obeys st (transform f) D.Admits :=
  obeys_transform hst fun v st' hf =>
    ⟨(h v st' hf).holds, (h v st' hf).extends_store.size_le, (h v st' hf).admits⟩

theorem configValue_obeys (hst : D.Holds st) (config : Option Config) :
    D.Obeys st (Session.configValue config) D.Admits := by
  cases config with
  | none => exact obeys_pure hst (D.admits_scalar fun _ => Value.noConfusion)
  | some c => exact (newConfig_obeys hst c).mono fun _ _ _ _ h => h.1

theorem obeys_alloc_admits (hst : D.Holds st) {n : Node} (hn : ∀ v ∈ n.values, D.Admits st v) :
    D.Obeys st (alloc n) D.Admits :=
  (obeys_alloc hst hn).mono fun _ _ _ _ h => h.1

end Policy

namespace Policy

open Session

variable {D : Policy} {scope : Scope}

/-- The names of a scope stand for admitted values. -/
def AdmitsScope (D : Policy) (st : Store) (scope : Scope) : Prop :=
  ∀ name v, Fields.get? name scope = some v → D.Admits st v

theorem AdmitsScope.mono {st st' : Store} (h : D.AdmitsScope st scope) (hs : st.size ≤ st'.size) :
    D.AdmitsScope st' scope :=
  fun name v hv => D.admits_mono hs (h name v hv)

/-- Where the names, the standard builder and what stands in a recipe are admitted. -/
structure Grants (D : Policy) (st : Store) (scope : Scope) (values : List Value) : Prop where
  holds : D.Holds st
  scope : D.AdmitsScope st scope
  standard : D.Admits st (.ref standardBuilderRef)
  values : ∀ v ∈ values, D.Admits st v

theorem Grants.later {st st' : Store} {values values' : List Value} (h : D.Grants st scope values)
    (hst' : D.Holds st') (hs : st.size ≤ st'.size) (hv : ∀ v ∈ values', v ∈ values) :
    D.Grants st' scope values' :=
  ⟨hst', h.scope.mono hs, D.admits_mono hs h.standard,
    fun v hm => D.admits_mono hs (h.values v (hv v hm))⟩

theorem Grants.left {st : Store} {vs ws : List Value} (h : D.Grants st scope (vs ++ ws)) :
    D.Grants st scope vs :=
  h.later h.holds (Nat.le_refl _) fun _ hv => List.mem_append_left _ hv

theorem Grants.right {st st' : Store} {vs ws : List Value} (h : D.Grants st scope (vs ++ ws))
    (hst' : D.Holds st') (hs : st.size ≤ st'.size) : D.Grants st' scope ws :=
  h.later hst' hs fun _ hv => List.mem_append_right _ hv

theorem templateOf_values (st : Store) (v : Value) : (st.templateOf v).values = [] := by
  unfold Store.templateOf
  cases v with
  | ref r =>
    cases hn : st.node r with
    | record kind attributes => cases kind <;> simp only [hn] <;> rfl
    | list _ | tuple _ | set _ | table _ | point _ _ | sealed =>
      simp only [hn]
      rfl
  | null | bool | int | float | str | octets | stage | combinator => rfl

mutual

/-- **What a recipe makes is admitted**, and the policy is kept on the way, also when the recipe
fails. -/
theorem make_obeys (recipe : Recipe) {st : Store} (h : D.Grants st scope recipe.values) :
    D.Obeys st (make scope recipe) D.Admits := by
  have hscalar : ∀ {st : Store} {v : Value}, (∀ r, v ≠ .ref r) → D.Admits st v :=
    fun hv => D.admits_scalar hv
  cases recipe with
  | document t => exact Made.obeys h.holds fun _ _ hload => loadText_made h.holds hload
  | «variable» name =>
    unfold make
    split
    · next v hv => exact obeys_pure h.holds (h.scope name v hv)
    · exact obeys_fail h.holds _
  | list items =>
    exact (makeAll_obeys items h).bind fun _ vs hst _ hvs => obeys_alloc_admits hst hvs
  | tuple items =>
    exact (makeAll_obeys items h).bind fun _ vs hst _ hvs => obeys_alloc_admits hst hvs
  | set items =>
    refine (makeMembers_obeys items h fun v hv => absurd hv List.not_mem_nil).bind
      fun st₁ members hst₁ _ hmembers => obeys_query_bind hst₁ fun ordered hordered => ?_
    refine obeys_alloc_admits hst₁ fun v hv => hmembers v ?_
    rw [← Except.ok.inj hordered] at hv
    exact Store.mem_of_mem_orderedMembers hv
  | table entries =>
    exact (makeEntries_obeys entries h fun v hv => absurd hv List.not_mem_nil).bind
      fun _ es hst _ hes => obeys_alloc_admits hst hes
  | octets bytes => exact obeys_pure h.holds (hscalar fun _ => Value.noConfusion)
  | plain attributes =>
    refine (makeFields_obeys attributes h).bind fun _ fields hst _ hfields =>
      obeys_alloc_admits hst fun v hv => ?_
    obtain ⟨field, hfield, rfl⟩ := List.mem_map.mp hv
    exact hfields _ (List.mem_map.mpr ⟨field, Fields.mem_of_mem_collapse hfield, rfl⟩)
  | «sealed» => exact obeys_alloc_admits h.holds fun v hv => absurd hv List.not_mem_nil
  | point x y =>
    refine (make_obeys x h.left).bind fun st₁ u hst₁ h₁ hu => ?_
    refine (make_obeys y (h.right hst₁ h₁)).bind fun st₂ v hst₂ h₂ hv => ?_
    exact obeys_alloc_admits hst₂ (List.forall_mem_cons.mpr
      ⟨D.admits_mono h₂ hu, List.forall_mem_singleton.mpr hv⟩)
  | fixed t =>
    exact obeys_alloc_admits h.holds
      (List.forall_mem_singleton.mpr (hscalar fun _ => Value.noConfusion))
  | rectangle width height =>
    refine (make_obeys width h.left).bind fun st₁ u hst₁ h₁ hu => ?_
    refine (make_obeys height (h.right hst₁ h₁)).bind fun st₂ v hst₂ h₂ hv => ?_
    exact obeys_alloc_admits hst₂ (List.forall_mem_cons.mpr
      ⟨D.admits_mono h₂ hu, List.forall_mem_singleton.mpr hv⟩)
  | stage s => exact obeys_pure h.holds (hscalar fun _ => Value.noConfusion)
  | combinator c => exact obeys_pure h.holds (hscalar fun _ => Value.noConfusion)
  | config c => exact (newConfig_obeys h.holds c).mono fun _ _ _ _ hc => hc.1
  | builder config =>
    refine (configValue_obeys h.holds config).bind fun st₁ c hst₁ _ hc => ?_
    exact (newBuilder_obeys hst₁ hc).mono fun _ _ _ _ hb => hb.1
  | standardBuilder => exact obeys_pure h.holds h.standard
  | selector config =>
    refine (configValue_obeys h.holds config).bind fun st₁ c hst₁ _ hc => ?_
    exact (newSelector_obeys hst₁ hc).mono fun _ _ _ _ hs => hs.1
  | combination left combinator right pad =>
    refine (newCombination_obeys h.holds (hscalar fun _ => Value.noConfusion)
      (hscalar fun _ => ?_) (hscalar fun _ => Value.noConfusion)
      (hscalar fun _ => Value.noConfusion)).mono fun _ _ _ _ hc => hc.1
    cases combinator <;> exact Value.noConfusion
  | error kind message stage =>
    refine Made.obeys h.holds fun _ _ herror => newError_made h.holds (hscalar fun _ => ?_) herror
    cases stage <;> exact Value.noConfusion
  | revived template t =>
    exact Made.obeys h.holds fun _ _ hrevive => revive_made h.holds h.values hrevive
  | revivedLike template t =>
    refine (make_obeys template h).bind fun st₁ v hst₁ _ _ => ?_
    refine Made.obeys hst₁ fun _ _ hrevive => revive_made hst₁ (fun u hu => ?_) hrevive
    rw [templateOf_values] at hu
    cases hu

theorem makeAll_obeys (recipes : List Recipe) {st : Store}
    (h : D.Grants st scope (Recipe.valuesAll recipes)) :
    D.Obeys st (makeAll scope recipes) fun st' vs => ∀ v ∈ vs, D.Admits st' v := by
  cases recipes with
  | nil => exact obeys_pure h.holds fun v hv => absurd hv List.not_mem_nil
  | cons recipe recipes =>
    refine (make_obeys recipe h.left).bind fun st₁ v hst₁ h₁ hv => ?_
    refine (makeAll_obeys recipes (h.right hst₁ h₁)).bind fun st₂ vs hst₂ h₂ hvs => ?_
    exact obeys_pure hst₂ (List.forall_mem_cons.mpr ⟨D.admits_mono h₂ hv, hvs⟩)

theorem makeMembers_obeys (recipes : List Recipe) {st : Store} {members : List Value}
    (h : D.Grants st scope (Recipe.valuesAll recipes))
    (hmembers : ∀ v ∈ members, D.Admits st v) :
    D.Obeys st (makeMembers scope members recipes) fun st' vs => ∀ v ∈ vs, D.Admits st' v := by
  cases recipes with
  | nil => exact obeys_pure h.holds hmembers
  | cons recipe recipes =>
    refine (make_obeys recipe h.left).bind fun st₁ v hst₁ h₁ hv => ?_
    refine obeys_query_bind hst₁ fun members' hinsert => ?_
    refine makeMembers_obeys recipes (h.right hst₁ h₁) fun u hu => ?_
    rcases Store.mem_of_mem_insertMember hinsert hu with hu | rfl
    · exact D.admits_mono h₁ (hmembers u hu)
    · exact hv

theorem makeEntries_obeys (recipes : List (Recipe × Recipe)) {st : Store}
    {entries : List (Value × Value)} (h : D.Grants st scope (Recipe.valuesEntries recipes))
    (hentries : ∀ v ∈ entryValues entries, D.Admits st v) :
    D.Obeys st (makeEntries scope entries recipes) fun st' es =>
      ∀ v ∈ entryValues es, D.Admits st' v := by
  cases recipes with
  | nil => exact obeys_pure h.holds hentries
  | cons entry recipes =>
    obtain ⟨key, value⟩ := entry
    refine (make_obeys key h.left.left).bind fun st₁ k hst₁ h₁ hk => ?_
    refine (make_obeys value (h.left.right hst₁ h₁)).bind fun st₂ v hst₂ h₂ hv => ?_
    have h₁₂ := Nat.le_trans h₁ h₂
    refine obeys_query_bind hst₂ fun entries' hinsert => ?_
    refine makeEntries_obeys recipes (h.right hst₂ h₁₂) fun u hu => ?_
    rcases Store.mem_values_insertEntry hinsert hu with rfl | rfl | hu
    · exact D.admits_mono h₂ hk
    · exact hv
    · exact D.admits_mono h₁₂ (hentries u hu)

theorem makeFields_obeys (recipes : List (Text × Recipe)) {st : Store}
    (h : D.Grants st scope (Recipe.valuesFields recipes)) :
    D.Obeys st (makeFields scope recipes) fun st' fields =>
      ∀ v ∈ fields.map Prod.snd, D.Admits st' v := by
  cases recipes with
  | nil => exact obeys_pure h.holds fun v hv => absurd hv List.not_mem_nil
  | cons field recipes =>
    obtain ⟨name, value⟩ := field
    refine (make_obeys value h.left).bind fun st₁ v hst₁ h₁ hv => ?_
    refine (makeFields_obeys recipes (h.right hst₁ h₁)).bind fun st₂ fields hst₂ h₂ hfields => ?_
    exact obeys_pure hst₂ (List.forall_mem_cons.mpr ⟨D.admits_mono h₂ hv, hfields⟩)

end

end Policy

end SelectorForge
