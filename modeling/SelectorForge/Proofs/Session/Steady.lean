import SelectorForge.Proofs.Session.Apart
import SelectorForge.Proofs.Session.Snapshot

/-!
# Texts that stay

What is added to a store behind its last node is not seen from the nodes in front of it. So, as long
as no value leads out of the store, a value that has a text has the same text in a larger store:

* `Store.Closed`, `Store.Inside`   stores and values that do not lead out;
* `Store.Widens`                   a store with further nodes, and nothing else;
* `Stays`                          an answer that is given again;
* `Steady`                         displays that are given again, to a depth that may be larger;
* `Store.Widens.renderValue`       the text of a value.
-/

namespace SelectorForge

namespace Store

/-! ### larger stores -/

/-- No value of the store leads out of it. -/
abbrev Closed (st : Store) : Prop := Policy.bounded.Holds st

/-- A value that does not lead out of a store. -/
abbrev Inside (st : Store) (v : Value) : Prop := Policy.bounded.Admits st v

structure Widens (st st' : Store) : Prop extends Extends st st' where
  given_eq : st'.given = st.given

theorem Widens.refl (st : Store) : st.Widens st := ⟨.refl st, rfl⟩

theorem Widens.trans {st st₁ st₂ : Store} (h : st.Widens st₁) (h' : st₁.Widens st₂) :
    st.Widens st₂ := ⟨h.toExtends.trans h'.toExtends, h'.given_eq.trans h.given_eq⟩

theorem widens_alloc (st : Store) (n : Node) : st.Widens (st.alloc n).2 :=
  ⟨extends_alloc st n, rfl⟩

variable {st st' : Store} {v : Value}

theorem inside_scalar (h : ∀ r, v ≠ .ref r) : st.Inside v := Policy.bounded.admits_scalar h

theorem inside_ref {r : Ref} (h : st.node r ≠ .sealed) : st.Inside (.ref r) := by
  intro q hq
  cases hq
  exact ⟨lt_size_of_node_ne h, id⟩

theorem Closed.inside (h : st.Closed) {r : Ref} (hv : v ∈ (st.node r).values) : st.Inside v :=
  Policy.bounded.admits_of_mem h trivial hv

theorem Closed.inside_attributes (h : st.Closed) {r : Ref} {kind : Kind} {attributes : Attributes}
    (hn : st.node r = .record kind attributes) : ∀ v ∈ attributes.values, st.Inside v :=
  fun v hv => h.inside (by rw [hn]; exact List.mem_append_right _ hv)

theorem Closed.inside_fields (h : st.Closed) {r : Ref} {kind : Kind} {attributes : Attributes}
    (hn : st.node r = .record kind attributes) :
    ∀ v ∈ (st.fields attributes).map Prod.snd, st.Inside v :=
  Policy.admits_fields h (h.inside_attributes hn)

theorem Closed.inside_core (h : st.Closed) {r : Ref} {kind : ErrorKind} {core : ErrorCore}
    {attributes : Attributes} (hn : st.node r = .record (.error kind core) attributes) :
    ∀ v ∈ core.values, st.Inside v :=
  fun v hv => h.inside (by rw [hn]; exact List.mem_append_left _ hv)

theorem inside_arguments {core : ErrorCore} (hcore : ∀ v ∈ core.values, st.Inside v) {r : Ref}
    (hr : core.arguments = some r) : st.Inside (.ref r) := by
  apply hcore
  unfold ErrorCore.values
  rw [hr]
  exact List.mem_cons_self

/-- The argument of an error that has one only. -/
theorem Closed.inside_argument (h : st.Closed) {core : ErrorCore}
    (hv : st.argumentsOf core = [v]) : st.Inside v := by
  unfold argumentsOf tupleItems at hv
  cases ha : core.arguments with
  | none =>
    rw [ha] at hv
    cases hv
  | some r =>
    rw [ha] at hv
    cases hn : st.node r with
    | tuple items =>
      simp only [hn] at hv
      apply h.inside
      rw [hn]
      show v ∈ items
      rw [hv]
      exact List.mem_cons_self
    | list _ | set _ | table _ | record _ _ | point _ _ | sealed =>
      simp only [hn] at hv
      cases hv

theorem Closed.inside_lookup (h : st.Closed) {u : Value} {name : Text} (hv : st.Inside v)
    (hu : st.lookup v name = .ok u) : st.Inside u :=
  Policy.Free.admits_lookup h ⟨hv, fun _ _ => trivial⟩ hu

theorem Closed.alloc (h : st.Closed) {n : Node} (hn : ∀ v ∈ n.values, st.Inside v) :
    (st.alloc n).2.Closed := Policy.bounded.holds_alloc h hn

/-! ### what is read in a larger store -/

namespace Widens

variable (h : st.Widens st')
include h

theorem node {r : Ref} (hr : st.Inside (.ref r)) : st'.node r = st.node r :=
  h.node_eq r (hr r rfl).1

theorem typeName (hv : st.Inside v) : st'.typeName v = st.typeName v := by
  cases v with
  | ref r =>
    show (st'.node r).typeName = (st.node r).typeName
    rw [h.node hv]
  | null | bool | int | float | str | octets | stage | combinator => rfl

theorem truthy (hv : st.Inside v) : st'.truthy v = st.truthy v := by
  cases v with
  | ref r => rw [truthy_ref, truthy_ref, h.node hv]
  | null | bool | int | float | str | octets | stage | combinator => rfl

theorem items (hv : st.Inside v) : st'.items v = st.items v := by
  cases v with
  | ref r =>
    simp only [Store.items, h.node hv]
  | null | bool | int | float | str | octets | stage | combinator => rfl

theorem fields {attributes : Attributes} (hattributes : ∀ v ∈ attributes.values, st.Inside v) :
    st'.fields attributes = st.fields attributes := by
  cases attributes with
  | own fields => rfl
  | shared table =>
    have htable : st'.node table = st.node table := h.node (hattributes _ List.mem_cons_self)
    rw [fields_shared, fields_shared, tableEntries, tableEntries, htable]

theorem lookup (hst : st.Closed) (hv : st.Inside v) (name : Text) :
    st'.lookup v name = st.lookup v name := by
  cases v with
  | ref r =>
    unfold Store.lookup
    simp only [h.typeName hv, h.node hv]
    cases hn : st.node r with
    | record kind attributes =>
      simp only
      rw [h.fields (hst.inside_attributes hn)]
    | list _ | tuple _ | set _ | table _ | point _ _ | sealed => rfl
  | null | bool | int | float | str | octets | stage | combinator =>
    unfold Store.lookup memberTable givenTo
    rw [h.given_eq, h.typeName hv]

theorem checkCallable {attributes : Fields Value}
    (hattributes : ∀ v ∈ attributes.map Prod.snd, st.Inside v) (name : Text) :
    st'.checkCallable attributes name = st.checkCallable attributes name := by
  unfold Store.checkCallable
  cases hg : Fields.get? name attributes with
  | none => rfl
  | some v =>
    simp only
    rw [h.typeName (hattributes v (Policy.mem_of_get? hg))]

theorem joiner (hst : st.Closed) (hv : st.Inside v) : st'.joiner v = st.joiner v := by
  have hfound : (st'.lookup v Name.join).map (fun found => Joiner.value (st'.typeName found))
      = (st.lookup v Name.join).map fun found => Joiner.value (st.typeName found) := by
    rw [h.lookup hst hv]
    cases hl : st.lookup v Name.join with
    | error f => rfl
    | ok u =>
      show Except.ok (Joiner.value (st'.typeName u)) = .ok (.value (st.typeName u))
      rw [h.typeName (hst.inside_lookup hv hl)]
  unfold Store.joiner
  split
  · rfl
  · rfl
  · exact hfound

theorem argumentsOf {core : ErrorCore} (hcore : ∀ v ∈ core.values, st.Inside v) :
    st'.argumentsOf core = st.argumentsOf core := by
  unfold Store.argumentsOf
  cases ha : core.arguments with
  | none => rfl
  | some r => simp only [tupleItems, h.node (inside_arguments hcore ha)]

end Widens

end Store

/-! ### answers that are given again -/

section Stays

variable {α β : Type} {x y : Except Fault α} {f g : α → Except Fault β}

/-- What one question answers the other one answers too. -/
def Stays (x y : Except Fault α) : Prop := ∀ a, x = .ok a → y = .ok a

theorem Stays.refl (x : Except Fault α) : Stays x x := fun _ h => h

theorem Stays.of_eq (h : y = x) : Stays x y := h ▸ Stays.refl x

theorem stays_error (fault : Fault) : Stays (.error fault) y := fun _ h => nomatch h

/-- What follows may depend on the answer, which is the same. -/
theorem Stays.bind (h : Stays x y) (hf : ∀ a, x = .ok a → Stays (f a) (g a)) :
    Stays (x >>= f) (y >>= g) := by
  intro b hb
  cases hx : x with
  | error fault =>
    rw [hx] at hb
    cases hb
  | ok a =>
    rw [hx] at hb
    rw [h a hx]
    exact hf a hx b hb

theorem Stays.map (h : Stays x y) (f : α → β) : Stays (x.map f) (y.map f) := by
  intro b hb
  cases hx : x with
  | error fault =>
    rw [hx] at hb
    cases hb
  | ok a =>
    rw [hx] at hb
    rw [h a hx]
    exact hb

theorem stays_mapM {as : List α} (h : ∀ a ∈ as, Stays (f a) (g a)) :
    Stays (as.mapM f) (as.mapM g) := by
  induction as with
  | nil => exact Stays.refl _
  | cons a as ih =>
    obtain ⟨hfirst, hrest⟩ := List.forall_mem_cons.mp h
    rw [List.mapM_cons, List.mapM_cons]
    exact hfirst.bind fun b _ => (ih hrest).bind fun bs _ => Stays.refl _

theorem stays_callMissing {st : Store} {v : Value} {name : Text} :
    Stays (st.callMissing v name : Except Fault α) y :=
  fun _ h => absurd h Store.callMissing_ne_ok

end Stays

/-! ### displays -/

theorem inside_recordAttribute {st : Store} {kind : Kind} {attributes : Fields Value} {name : Text}
    {v : Value} (hattributes : ∀ v ∈ attributes.map Prod.snd, st.Inside v)
    (h : Store.recordAttribute kind attributes name = .ok v) : st.Inside v :=
  Policy.admits_recordAttribute (fun u hu => hattributes u (Policy.mem_of_get? hu)) h

/-- What is displayed with some fuel is displayed in a larger store with more. -/
structure Steady (st st' : Store) (n m : Nat) : Prop where
  shown : ∀ path v, st.Inside v → Stays (st.shown n path v) (st'.shown m path v)
  shownFields : ∀ path r name fields, st.Inside (.ref r) →
    Stays (st.shownFields n path r name fields) (st'.shownFields m path r name fields)
  plain : ∀ path v, st.Inside v → Stays (st.plain n path v) (st'.plain m path v)
  rendered : ∀ path v, st.Inside v → Stays (st.rendered n path v) (st'.rendered m path v)
  selectorText : ∀ path fields, (∀ v ∈ fields.map Prod.snd, st.Inside v) →
    Stays (st.selectorText n path fields) (st'.selectorText m path fields)
  combinationText : ∀ path fields, (∀ v ∈ fields.map Prod.snd, st.Inside v) →
    Stays (st.combinationText n path fields) (st'.combinationText m path fields)

namespace Steady

variable {st st' : Store} {n m : Nat} {path : List Ref}

theorem zero (st st' : Store) (m : Nat) : Steady st st' 0 m where
  shown _ _ _ := by
    unfold Store.shown
    exact stays_error _
  shownFields _ _ _ _ _ := by
    unfold Store.shownFields
    exact stays_error _
  plain _ _ _ := by
    unfold Store.plain
    exact stays_error _
  rendered _ _ _ := by
    unfold Store.rendered
    exact stays_error _
  selectorText _ _ _ := by
    unfold Store.selectorText
    exact stays_error _
  combinationText _ _ _ := by
    unfold Store.combinationText
    exact stays_error _

/-- The parts of one stage. -/
theorem parts (hst : st.Closed) (ih : Steady st st' n m) {v : Value} {vs : List Value}
    (hv : st.Inside v) (hvs : st.items v = .ok vs) (mark : Text → Text) :
    Stays (vs.mapM fun u => (st.plain n path u).map mark)
      (vs.mapM fun u => (st'.plain m path u).map mark) :=
  stays_mapM fun u hu => (ih.plain path u (Policy.admits_items hst hv hvs u hu)).map mark

/-- A part that may be missing, and what comes after it. -/
theorem part_bind (ih : Steady st st' n m) {v : Value} (hv : st.Inside v) (mark : Text → Text)
    {f g : Text → Except Fault Text} (hf : ∀ t, Stays (f t) (g t)) :
    Stays (if v = .null then .ok [] >>= f else (st.plain n path v).map mark >>= f)
      (if v = .null then .ok [] >>= g else (st'.plain m path v).map mark >>= g) := by
  split
  · exact hf []
  · exact ((ih.plain path v hv).map mark).bind fun t _ => hf t

/-- The combinator only has to be a text where it is stripped of its blanks. -/
theorem combinationText_succ (h : st.Widens st') (ih : Steady st st' n m)
    {attributes : Fields Value} (hattributes : ∀ v ∈ attributes.map Prod.snd, st.Inside v) :
    Stays (st.combinationText (n + 1) path attributes)
      (st'.combinationText (m + 1) path attributes) := by
  have hget : ∀ {name v}, Store.recordAttribute .combination attributes name = .ok v →
      st.Inside v := inside_recordAttribute hattributes
  unfold Store.combinationText
  refine (Stays.refl _).bind fun pad hpad => ?_
  rw [h.truthy (hget hpad)]
  split
  · refine (Stays.refl _).bind fun left hleft => (ih.plain path left (hget hleft)).bind fun _ _ => ?_
    refine (Stays.refl _).bind fun c hc => (ih.plain path c (hget hc)).bind fun _ _ => ?_
    refine (Stays.refl _).bind fun right hright => ?_
    exact (ih.plain path right (hget hright)).bind fun _ _ => Stays.refl _
  · refine (Stays.refl _).bind fun c _ => ?_
    cases Store.asText? c with
    | none => exact stays_callMissing.bind fun _ hmissing => absurd hmissing Store.callMissing_ne_ok
    | some t =>
      refine (Stays.refl _).bind fun _ _ => (Stays.refl _).bind fun left hleft => ?_
      refine (ih.plain path left (hget hleft)).bind fun _ _ => ?_
      refine (Stays.refl _).bind fun right hright => ?_
      exact (ih.plain path right (hget hright)).bind fun _ _ => Stays.refl _

section step

variable (hst : st.Closed) (h : st.Widens st') (ih : Steady st st' n m)
include hst h ih

theorem rendered_succ {v : Value} (hv : st.Inside v) :
    Stays (st.rendered (n + 1) path v) (st'.rendered (m + 1) path v) := by
  unfold Store.rendered
  cases v with
  | ref r =>
    simp only [h.node hv]
    cases hn : st.node r with
    | record kind attributes =>
      have hfields := hst.inside_fields hn
      have hsame := h.fields (hst.inside_attributes hn)
      cases kind with
      | selector =>
        simp only [hsame, h.checkCallable hfields]
        exact (Stays.refl _).bind fun _ _ => (ih.selectorText path _ hfields).map _
      | combination =>
        simp only [hsame, h.checkCallable hfields]
        exact (Stays.refl _).bind fun _ _ => (ih.combinationText path _ hfields).map _
      | fixed =>
        simp only [hsame, h.checkCallable hfields]
        exact Stays.refl _
      | plain | rectangle | config | builder | error _ _ => exact stays_callMissing
    | list _ | tuple _ | set _ | table _ | point _ _ | sealed => exact stays_callMissing
  | null | bool | int | float | str | octets | stage | combinator => exact stays_callMissing

theorem selectorText_succ {attributes : Fields Value}
    (hattributes : ∀ v ∈ attributes.map Prod.snd, st.Inside v) :
    Stays (st.selectorText (n + 1) path attributes) (st'.selectorText (m + 1) path attributes) := by
  have hget : ∀ {name v}, Store.recordAttribute .selector attributes name = .ok v →
      st.Inside v := inside_recordAttribute hattributes
  have hitems : ∀ {v}, st.Inside v → Stays (st.items v) (st'.items v) := fun hv =>
    Stays.of_eq (h.items hv)
  -- one step for each attribute, in the order in which they are read
  unfold Store.selectorText
  refine (Stays.refl _).bind fun element helement => ?_
  refine (Stays.refl _).bind fun id hid => part_bind ih (hget hid) _ fun _ => ?_
  refine (Stays.refl _).bind fun classes hclasses => ?_
  refine (hitems (hget hclasses)).bind fun _ hc => ?_
  refine (parts hst ih (hget hclasses) hc _).bind fun _ _ => ?_
  refine (Stays.refl _).bind fun config hconfig => ?_
  refine (Stays.of_eq (h.lookup hst (hget hconfig) _)).bind fun separator hseparator => ?_
  refine (Stays.of_eq (h.joiner hst (hst.inside_lookup (hget hconfig) hseparator))).bind
    fun _ _ => ?_
  refine (Stays.refl _).bind fun conditions hconditions => ?_
  refine (hitems (hget hconditions)).bind fun _ hc => (Stays.refl _).bind fun _ _ => ?_
  refine (parts hst ih (hget hconditions) hc _).bind fun _ _ => (Stays.refl _).bind fun _ _ => ?_
  refine (Stays.refl _).bind fun pseudoClasses hpseudoClasses => ?_
  refine (hitems (hget hpseudoClasses)).bind fun _ hc => ?_
  refine (parts hst ih (hget hpseudoClasses) hc _).bind fun _ _ => ?_
  refine (Stays.refl _).bind fun pseudoElement hpseudoElement => ?_
  refine part_bind ih (hget hpseudoElement) _ fun _ => ?_
  simp only [h.truthy (hget helement)]
  split
  · cases Store.asText? element with
    | none => exact (stays_error _).bind fun _ herror => nomatch herror
    | some t => exact Stays.refl _
  · exact Stays.refl _

theorem plain_succ {v : Value} (hv : st.Inside v) :
    Stays (st.plain (n + 1) path v) (st'.plain (m + 1) path v) := by
  unfold Store.plain
  cases v with
  | ref r =>
    simp only [h.node hv]
    have hshown := ih.shown path (.ref r) hv
    have hrendered : Stays (st.rendered n path (.ref r) >>= st.plain n path)
        (st'.rendered m path (.ref r) >>= st'.plain m path) :=
      (ih.rendered path (.ref r) hv).bind fun t ht =>
        ih.plain path t (Policy.admits_rendered hst hv ht)
    cases hn : st.node r with
    | record kind attributes =>
      cases kind with
      | selector | combination => exact hrendered
      | error kind core =>
        have hcore := hst.inside_core hn
        simp only [h.argumentsOf hcore]
        split
        · exact Stays.refl _
        · next argument hargument =>
          exact ih.plain path argument (hst.inside_argument hargument)
        · next q hq _ _ => exact ih.shown path (.ref q) (Store.inside_arguments hcore hq)
        · exact Stays.refl _
      | plain | fixed | rectangle | config | builder => exact hshown
    | list _ | tuple _ | set _ | table _ | point _ _ | sealed => exact hshown
  | null | bool | int | float | str | octets | stage | combinator => exact Stays.refl _

theorem shownFields_succ {r : Ref} (hr : st.Inside (.ref r)) (name : Text) (fields : List Text) :
    Stays (st.shownFields (n + 1) path r name fields)
      (st'.shownFields (m + 1) path r name fields) := by
  unfold Store.shownFields
  split
  · exact Stays.refl _
  · refine Stays.bind (stays_mapM fun field _ => ?_) fun _ _ => Stays.refl _
    refine (Stays.of_eq (h.lookup hst hr field)).bind fun v hv => ?_
    exact (ih.shown _ v (hst.inside_lookup hr hv)).bind fun _ _ => Stays.refl _

theorem shown_succ {v : Value} (hv : st.Inside v) :
    Stays (st.shown (n + 1) path v) (st'.shown (m + 1) path v) := by
  unfold Store.shown
  cases v with
  | ref r =>
    simp only [h.node hv]
    -- what is shown on the way is on the path in both stores, so a cycle is cut at the same place
    have hparts : ∀ vs : List Value, (∀ u ∈ vs, u ∈ (st.node r).values) →
        Stays (vs.mapM (st.shown n (r :: path))) (vs.mapM (st'.shown m (r :: path))) :=
      fun vs hvs => stays_mapM fun u hu => ih.shown _ u (hst.inside (hvs u hu))
    cases hn : st.node r with
    | list items | tuple items =>
      rw [hn] at hparts
      simp only
      split
      · exact Stays.refl _
      · exact (hparts items fun _ hu => hu).map _
    | set items =>
      rw [hn] at hparts
      simp only
      split
      · exact Stays.refl _
      · split
        · exact Stays.refl _
        · exact (hparts items fun _ hu => hu).map _
    | table entries =>
      have hentry : ∀ e ∈ entries, st.Inside e.1 ∧ st.Inside e.2 := by
        intro e he
        have hmem : ∀ {u}, u = e.1 ∨ u = e.2 → u ∈ (st.node r).values := by
          intro u hu
          rw [hn]
          exact mem_entryValues.mpr ⟨e, he, hu⟩
        exact ⟨hst.inside (hmem (Or.inl rfl)), hst.inside (hmem (Or.inr rfl))⟩
      simp only
      split
      · exact Stays.refl _
      · refine Stays.map (stays_mapM fun e he => ?_) _
        obtain ⟨hkey, hvalue⟩ := hentry e he
        exact (ih.shown _ e.1 hkey).bind fun _ _ => (ih.shown _ e.2 hvalue).bind fun _ _ =>
          Stays.refl _
    | sealed => exact Stays.refl _
    | point x y => exact ih.shownFields path r _ _ hv
    | record kind attributes =>
      cases kind with
      | plain | fixed | builder => exact Stays.refl _
      | rectangle | config | combination => exact ih.shownFields path r _ _ hv
      | selector =>
        refine (ih.rendered path (.ref r) hv).bind fun t ht => ?_
        refine (ih.shown path t (Policy.admits_rendered hst hv ht)).bind fun _ _ => Stays.refl _
      | error kind core =>
        have hcore := hst.inside_core hn
        simp only [h.argumentsOf hcore]
        split
        · next argument hargument =>
          exact (ih.shown path argument (hst.inside_argument hargument)).map _
        · next q hq _ => exact (ih.shown path (.ref q) (Store.inside_arguments hcore hq)).map _
        · exact Stays.refl _
  | null | bool | int | float | str | octets | stage | combinator => exact Stays.refl _

end step

/-- **To any depth** displays are given again in a larger store. -/
theorem of_le {st st' : Store} (hst : st.Closed) (h : st.Widens st') {n m : Nat} (hnm : n ≤ m) :
    Steady st st' n m := by
  induction n generalizing m with
  | zero => exact zero st st' m
  | succ n ih =>
    obtain ⟨k, rfl⟩ : ∃ k, m = k + 1 := ⟨m - 1, by omega⟩
    have hless : Steady st st' n k := ih (Nat.le_of_succ_le_succ hnm)
    exact {
      shown := fun _ _ => shown_succ hst h hless
      shownFields := fun _ _ name fields hr => shownFields_succ hst h hless hr name fields
      plain := fun _ _ => plain_succ hst h hless
      rendered := fun _ _ => rendered_succ hst h hless
      selectorText := fun _ _ => selectorText_succ hst h hless
      combinationText := fun _ _ => combinationText_succ h hless }

end Steady

namespace Store

variable {st st' : Store}

/-- What leads out of the store has no text. -/
theorem inside_of_renderValue {v u : Value} (h : st.renderValue v = .ok u) : st.Inside v := by
  cases v with
  | ref r =>
    apply inside_ref
    intro hn
    unfold renderValue displayFuel rendered at h
    simp only [hn] at h
    exact callMissing_ne_ok h
  | null | bool | int | float | str | octets | stage | combinator =>
    exact inside_scalar fun _ => Value.noConfusion

/-- **The text of a value is the same in a larger store.** -/
theorem Widens.renderValue (h : st.Widens st') (hst : st.Closed) {v u : Value}
    (hu : st.renderValue v = .ok u) : st'.renderValue v = .ok u := by
  have hfuel : st.displayFuel ≤ st'.displayFuel := by
    have := h.size_le
    unfold displayFuel
    omega
  exact (Steady.of_le hst h hfuel).rendered [] v (inside_of_renderValue hu) u hu

end Store

end SelectorForge
