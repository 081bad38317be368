import SelectorForge.Proofs.Session.Steps

/-!
# Combinations are snapshots

A combination holds the texts that its operands had when it was made. It is frozen, and nothing that
is frozen changes in a session, so what it answers for stays, whatever becomes of the operands and
of the builder:

* `Store.Later`            a store after changes: what is fixed has stayed;
* `Session.runFrom_later`  a session leaves such a store behind;
* `Session.Joint`          what a step that joins two operands names;
* `Session.IsJoined`       a combination, by what it answers;
* `Session.snapshot`       what it answers after any further steps.

Only the truth of what stands for the padding can change, if it is a list or a table.
-/

namespace SelectorForge

open Effect

/-! ### what stays in a store -/

theorem Node.Becomes.trans {a b c : Node} (h : a.Becomes b) (h' : b.Becomes c) : a.Becomes c := by
  cases h with
  | list => cases h' with | list => exact .list _ _
  | table => cases h' with | table => exact .table _ _
  | record hk => cases h' with | record => exact .record hk _ _ _
  | point => cases h' with | point => exact .point _ _ _ _

/-- Whether a node can gain and lose entries. -/
def Node.isContainer : Node → Bool
  | .list _ | .table _ => true
  | _ => false

/-- An empty container counts as false. -/
def Node.isTrue : Node → Bool
  | .list items | .tuple items | .set items => !items.isEmpty
  | .table entries => !entries.isEmpty
  | _ => true

theorem Node.Becomes.isTrue_eq {n n' : Node} (h : n.Becomes n') (hn : n.isContainer = false) :
    n'.isTrue = n.isTrue := by
  cases h with
  | list | table => cases hn
  | record | point => rfl

namespace Store

theorem truthy_ref (st : Store) (r : Ref) : st.truthy (.ref r) = (st.node r).isTrue := by
  simp only [truthy]
  cases st.node r <;> rfl

/-- A store after changes: every node has stayed or become what it can become. -/
structure Later (st₀ st : Store) : Prop where
  size_le : st₀.size ≤ st.size
  node : ∀ r < st₀.size, st.node r = st₀.node r ∨ (st₀.node r).Becomes (st.node r)

variable {st₀ st : Store}

theorem Later.refl (st : Store) : Later st st := ⟨Nat.le_refl _, fun _ _ => Or.inl rfl⟩

theorem Later.alloc (h : Later st₀ st) (n : Node) : Later st₀ (st.alloc n).2 where
  size_le := Nat.le_trans h.size_le (Nat.le_of_lt (st.size_lt_alloc n))
  node r hr := by
    rw [st.node_alloc n r (Nat.lt_of_lt_of_le hr h.size_le)]
    exact h.node r hr

theorem Later.write (h : Later st₀ st) {r : Ref} {n : Node} (hn : (st.node r).Becomes n) :
    Later st₀ (st.write r n) where
  size_le := by
    rw [size_write]
    exact h.size_le
  node q hq := by
    by_cases hr : r = q
    · subst hr
      rw [node_write_self _ _ (Nat.lt_of_lt_of_le hq h.size_le)]
      rcases h.node r hq with he | hbecomes
      · exact Or.inr (he ▸ hn)
      · exact Or.inr (hbecomes.trans hn)
    · rw [node_write_of_ne _ _ hr]
      exact h.node q hq

/-- What is fixed is found as it was. -/
theorem Later.node_eq (h : Later st₀ st) {r : Ref} {n : Node} (hn : st₀.node r = n)
    (hfixed : n.isFixed = true) (hr : r < st₀.size) : st.node r = n := by
  rcases h.node r hr with he | hbecomes
  · rw [he, hn]
  · rw [hn] at hbecomes
    rw [hbecomes.isFixed_eq_false] at hfixed
    cases hfixed

/-- A value without a node, or with one that neither gains nor loses entries. -/
def Settled (st : Store) (v : Value) : Prop :=
  ∀ r, v = .ref r → r < st.size ∧ (st.node r).isContainer = false

theorem settled_scalar {v : Value} (h : ∀ r, v ≠ .ref r) : st.Settled v :=
  fun r hr => absurd hr (h r)

/-- The truth of a settled value is settled. -/
theorem Later.truthy_eq (h : Later st₀ st) {v : Value} (hv : st₀.Settled v) :
    st.truthy v = st₀.truthy v := by
  cases v with
  | ref r =>
    obtain ⟨hr, hcontainer⟩ := hv r rfl
    rw [truthy_ref, truthy_ref]
    rcases h.node r hr with he | hbecomes
    · rw [he]
    · exact hbecomes.isTrue_eq hcontainer
  | null | bool | int | float | str | octets | stage | combinator => rfl

end Store

/-- Everything may be moved and opened, and still what is fixed stays. -/
def Policy.upkeep (st₀ : Store) : Policy where
  Holds := Store.Later st₀
  Admits _ _ := True
  Opens _ := True
  admits_scalar _ := trivial
  admits_mono _ _ := trivial
  admits_new _ _ := trivial
  opens_new _ := trivial
  opens_of_ne_selector _ _ _ := trivial
  admits_of_mem _ _ _ := trivial
  admits_attribute _ _ _ _ _ _ := trivial
  admits_copied _ _ _ _ _ _ _ _ := trivial
  admits_given _ _ := trivial
  holds_alloc h _ := h.alloc _
  holds_write h _ hn _ := h.write hn
  holds_give h _ := ⟨h.size_le, h.node⟩

/-! ### texts of combinations -/

namespace Store

theorem plain_of_text {v : Value} {t : Text} (h : asText? v = some t) (st : Store) (fuel : Nat)
    (path : List Ref) : st.plain (fuel + 1) path v = .ok t := by
  unfold plain
  cases v with
  | str | combinator =>
    cases h
    rfl
  | null | bool | int | float | octets | stage | ref => cases h

/-- A combination of whatever counts as texts, padded if the padding counts as true. -/
theorem renderValue_of_texts {st : Store} {r : Ref} {left combinator right pad : Value}
    {tl tc tr : Text} (hn : st.node r = .record .combination (.own [(Name.left, left),
      (Name.combinator, combinator), (Name.right, right), (Name.pad, pad)]))
    (hl : asText? left = some tl) (hc : asText? combinator = some tc)
    (hr : asText? right = some tr) :
    st.renderValue (.ref r) = .ok (.str (Combination.render ⟨tl, tc, tr, st.truthy pad⟩)) := by
  have hplain : ∀ {v : Value} {t : Text}, asText? v = some t →
      st.plain (4 * st.size + 2) [] v = .ok t := fun h => plain_of_text h st _ _
  unfold renderValue displayFuel rendered
  simp only [hn]
  show Except.map Value.str (combinationText st (4 * st.size + 3) [] _) = _
  unfold combinationText
  show Except.map Value.str (if st.truthy pad = true then _ else _) = _
  cases st.truthy pad with
  | true =>
    show Except.map Value.str (do
      let left ← st.plain (4 * st.size + 2) [] left
      let combinator ← st.plain (4 * st.size + 2) [] combinator
      let right ← st.plain (4 * st.size + 2) [] right
      .ok (left ++ Combination.token true combinator ++ right)) = _
    rw [hplain hl, hplain hc, hplain hr]
    rfl
  | false =>
    -- without padding the combinator is stripped, so it has to be a text itself
    cases combinator with
    | str | combinator =>
      cases hc
      show Except.map Value.str (do
        let left ← st.plain (4 * st.size + 2) [] left
        let right ← st.plain (4 * st.size + 2) [] right
        .ok (left ++ Combination.token false _ ++ right)) = _
      rw [hplain hl, hplain hr]
      rfl
    | null | bool | int | float | octets | stage | ref => cases hc

end Store

/-! ### what stays in a session -/

namespace Session

theorem next_later {st₀ : Store} {s : State} (h : Store.Later st₀ s.store) (step : Step) :
    Store.Later st₀ (next s step).2.store := by
  have hgrants : (Policy.upkeep st₀).Grants s.store s.scope step.values :=
    ⟨h, fun _ _ _ => trivial, trivial, fun _ _ => trivial⟩
  exact (Policy.next_keeps hgrants (Policy.allows_of_opens (fun _ => trivial) s.scope step)).1

/-- **No session changes what is fixed.** -/
theorem runFrom_later {st₀ : Store} {s : State} (h : Store.Later st₀ s.store) (steps : List Step) :
    Store.Later st₀ (runFrom s steps).2.store := by
  induction steps generalizing s with
  | nil => exact h
  | cons step steps ih => exact ih (next_later h step)

/-! ### combinations -/

/-- What a step that joins two operands names. -/
structure Joint where
  left : Text
  combinator : Text
  right : Text
  into : Text

/-- By itself or by a builder, a step joins two operands. -/
def Step.joint? : Step → Option Joint
  | .combine _ left combinator right into => some ⟨left, combinator.asText, right, into⟩
  | .join left combinator right _ into => some ⟨left, combinator.asText, right, into⟩
  | _ => none

/-- A combination of two texts. -/
def joined (left combinator right : Text) (pad : Value) : Node :=
  .record .combination (.own [(Name.left, .str left), (Name.combinator, .str combinator),
    (Name.right, .str right), (Name.pad, pad)])

/-- A combination, by what it answers for its attributes. -/
structure IsJoined (st : Store) (v : Value) (left combinator right : Text) (pad : Value) :
    Prop where
  left : st.lookup v Name.left = .ok (.str left)
  combinator : st.lookup v Name.combinator = .ok (.str combinator)
  right : st.lookup v Name.right = .ok (.str right)
  pad : st.lookup v Name.pad = .ok pad

section joined

variable {st : Store} {r : Ref} {left combinator right : Text} {pad : Value}

theorem isJoined_of_node (h : st.node r = joined left combinator right pad) :
    IsJoined st (.ref r) left combinator right pad := by
  constructor <;> simp only [Store.lookup, h, joined] <;> rfl

theorem renderValue_of_node (h : st.node r = joined left combinator right pad) :
    st.renderValue (.ref r)
      = .ok (.str (Combination.render ⟨left, combinator, right, st.truthy pad⟩)) :=
  Store.renderValue_of_texts h rfl rfl rfl

theorem isFrozen_of_node (h : st.node r = joined left combinator right pad) :
    st.isFrozen (.ref r) = true := by
  simp only [Store.isFrozen, h, joined]
  rfl

end joined

/-! ### making one -/

section making

variable {w w' : World} {l r c pad : Value} {tl tr combinator : Text}

theorem combinationOf_eq_ok (hl : w.store.renderValue l = .ok (.str tl))
    (hr : w.store.renderValue r = .ok (.str tr))
    (h : (combinationOf l combinator r pad).run w = (.ok c, w')) :
    c = .ref w.store.size ∧ w'.store = (w.store.alloc (joined tl combinator tr pad)).2 := by
  obtain ⟨u, hu, h⟩ := run_query_bind_eq_ok h
  obtain ⟨v, hv, h⟩ := run_query_bind_eq_ok h
  rw [hl] at hu
  rw [hr] at hv
  cases hu
  cases hv
  cases h
  exact ⟨rfl, rfl⟩

/-- A builder makes a combination that is padded as its configuration says at this moment. -/
theorem combine_eq_ok {builder : Value} (hl : w.store.renderValue l = .ok (.str tl))
    (hr : w.store.renderValue r = .ok (.str tr))
    (h : (combine builder l combinator r).run w = (.ok c, w')) :
    ∃ pad, c = .ref w.store.size ∧
      w'.store = (w.store.alloc (joined tl combinator tr pad)).2 := by
  have hmissing : ∀ {w w' : World} {c : Value} {name : Text},
      (query fun st => st.callMissing builder name : Effect Value).run w ≠ (.ok c, w') :=
    fun hm => Store.callMissing_ne_ok (Prod.mk.inj hm).1
  unfold combine at h
  cases builder with
  | ref b =>
    obtain ⟨n, _, h⟩ := run_query_bind_eq_ok h
    split at h
    · obtain ⟨_, _, h⟩ := run_query_bind_eq_ok h
      obtain ⟨config, _, h⟩ := run_query_bind_eq_ok h
      obtain ⟨pad, _, h⟩ := run_query_bind_eq_ok h
      obtain ⟨c', w₁, hc, h⟩ := run_bind_eq_ok h
      obtain ⟨rfl, hstore⟩ := combinationOf_eq_ok hl hr hc
      obtain ⟨_, _, h⟩ := run_query_bind_eq_ok h
      obtain ⟨_, _, h⟩ := run_query_bind_eq_ok h
      cases h
      exact ⟨pad, rfl, hstore⟩
    · exact absurd h hmissing
  | null | bool | int | float | str | octets | stage | combinator => exact absurd h hmissing

end making

theorem checkCombines_eq_ok {v : Value} {w w' : World} {u : Unit}
    (h : (checkCombines v).run w = (.ok u, w')) : w' = w := by
  obtain ⟨isBuilder, _, h⟩ := run_query_bind_eq_ok h
  split at h
  · exact (Prod.mk.inj h).2.symm
  · obtain ⟨_, _, h⟩ := run_query_bind_eq_ok h
    exact (Prod.mk.inj h).2.symm

/-- What a step that joins two operands binds, and the store after it. -/
theorem perform_joint {scope : Scope} {step : Step} {j : Joint} (hstep : step.joint? = some j)
    {l r : Value} {tl tr : Text} {w w' : World} (hl : Fields.get? j.left scope = some l)
    (hr : Fields.get? j.right scope = some r) (htl : w.store.renderValue l = .ok (.str tl))
    (htr : w.store.renderValue r = .ok (.str tr)) {answer : Answer}
    {binding : Option (Text × Value)}
    (h : (perform scope step).run w = (.ok (answer, binding), w')) :
    ∃ pad, binding = some (j.into, .ref w.store.size) ∧
      w'.store = (w.store.alloc (joined tl j.combinator tr pad)).2 := by
  have hshown : ∀ {c : Value} {into : Text} {w w' : World},
      (do pure (Answer.document (← documentOf (← textOf c)), some (into, c)) :
        Effect (Answer × Option (Text × Value))).run w = (.ok (answer, binding), w') →
      binding = some (into, c) ∧ w' = w := by
    intro c into w w' h
    obtain ⟨_, _, h⟩ := run_query_bind_eq_ok h
    obtain ⟨_, _, h⟩ := run_query_bind_eq_ok h
    cases h
    exact ⟨rfl, rfl⟩
  cases step with
  | combine builder left combinator right into =>
    cases hstep
    obtain ⟨b, _, h⟩ := named_bind_eq_ok h
    obtain ⟨_, w₁, hcheck, h⟩ := run_bind_eq_ok h
    rw [checkCombines_eq_ok hcheck] at h
    obtain ⟨l', hl', h⟩ := named_bind_eq_ok h
    obtain ⟨r', hr', h⟩ := named_bind_eq_ok h
    cases hl.symm.trans hl'
    cases hr.symm.trans hr'
    obtain ⟨c, w₂, hc, h⟩ := run_bind_eq_ok h
    obtain ⟨pad, rfl, hstore⟩ := combine_eq_ok htl htr hc
    obtain ⟨hbinding, rfl⟩ := hshown h
    exact ⟨pad, hbinding, hstore⟩
  | join left combinator right pad into =>
    cases hstep
    obtain ⟨l', hl', h⟩ := named_bind_eq_ok h
    obtain ⟨r', hr', h⟩ := named_bind_eq_ok h
    cases hl.symm.trans hl'
    cases hr.symm.trans hr'
    obtain ⟨c, w₂, hc, h⟩ := run_bind_eq_ok h
    obtain ⟨rfl, hstore⟩ := combinationOf_eq_ok htl htr hc
    obtain ⟨hbinding, rfl⟩ := hshown h
    exact ⟨.bool pad, hbinding, hstore⟩
  | make | factory | append | state | extendCopy | render | plain | display | area | get | set
  | delete | equal | toJson => cases hstep

/-! ### any session afterwards -/

/-- Nothing is assigned through this name and nothing is deleted: after the value has been made, as
far as it can be made, the object refuses. -/
structure Refuses (s : State) (on : Text) : Prop where
  set : ∀ name recipe,
    let made := (make s.scope recipe).run { store := s.store }
    next s (.set on name recipe)
      = (⟨made.1.bind fun _ => .error (.frozenAssign name), made.2.notes, none⟩,
        ⟨made.2.store, s.scope⟩)
  delete : ∀ name, next s (.delete on name) = (⟨.error (.frozenDelete name), [], none⟩, s)

theorem refuses_of_node {s : State} {on : Text} {r : Ref} {left combinator right : Text}
    {pad : Value} (hon : Fields.get? on s.scope = some (.ref r))
    (hn : s.store.node r = joined left combinator right pad) : Refuses s on where
  set name recipe := by
    have hr : r < s.store.size := Store.lt_size_of_node_ne (by rw [hn]; exact Node.noConfusion)
    have hlater : Store.Later s.store ((make s.scope recipe).run { store := s.store }).2.store :=
      ((Policy.upkeep s.store).make_obeys recipe
        ⟨.refl s.store, fun _ _ _ => trivial, trivial, fun _ _ => trivial⟩ []).1
    unfold next perform
    rw [run_bind, run_named hon]
    simp only
    rw [run_bind]
    rcases hrun : (make s.scope recipe).run { store := s.store } with ⟨f | value, w⟩
    · rfl
    · rw [hrun] at hlater
      have hfrozen := isFrozen_of_node (hlater.node_eq hn rfl hr)
      simp only
      rw [run_bind, run_change_error (w.store.setAttribute_of_isFrozen hfrozen name value)]
      rfl
  delete name := by
    unfold next perform
    rw [run_bind, run_named hon]
    simp only
    rw [run_bind, run_change_error
      (s.store.deleteAttribute_of_isFrozen (isFrozen_of_node hn) name)]
    rfl

/-- **Combinations are snapshots.** A step that joins two operands binds a combination of their texts
at this moment. After any further steps it answers for its attributes what it answered before, and it
refuses every assignment and every deletion. Its text is made of these attributes, padded if the
padding is true by then; it is the text of this moment, unless the padding is a list or a table. -/
theorem snapshot {s : State} {step : Step} {j : Joint} (hstep : step.joint? = some j)
    {l r : Value} {tl tr : Text} (hl : Fields.get? j.left s.scope = some l)
    (hr : Fields.get? j.right s.scope = some r) (htl : s.store.renderValue l = .ok (.str tl))
    (htr : s.store.renderValue r = .ok (.str tr)) {answer : Answer}
    (hok : (next s step).1.outcome = .ok answer) :
    ∃ v pad, let made := (next s step).2
      Fields.get? j.into made.scope = some v ∧
      ∀ later : List Step, let s' := (runFrom made later).2
        IsJoined s'.store v tl j.combinator tr pad ∧
        s'.store.renderValue v
          = .ok (.str (Combination.render ⟨tl, j.combinator, tr, s'.store.truthy pad⟩)) ∧
        (made.store.Settled pad → s'.store.renderValue v
          = .ok (.str (Combination.render ⟨tl, j.combinator, tr, made.store.truthy pad⟩))) ∧
        ∀ on, Fields.get? on s'.scope = some v → Refuses s' on := by
  obtain ⟨pad, hbound, hn⟩ : ∃ pad,
      Fields.get? j.into (next s step).2.scope = some (.ref s.store.size) ∧
      (next s step).2.store.node s.store.size = joined tl j.combinator tr pad := by
    obtain ⟨⟨answer', binding⟩, w, hrun⟩ := perform_of_isOk (by rw [hok]; rfl)
    obtain ⟨pad, rfl, hstore⟩ := perform_joint hstep hl hr htl htr hrun
    unfold next
    rw [hrun]
    simp only
    exact ⟨pad, Fields.get?_put_self _ _ _, by rw [hstore]; exact Store.node_alloc_self _ _⟩
  refine ⟨.ref s.store.size, pad, hbound, fun later => ?_⟩
  have hlater := runFrom_later (.refl (next s step).2.store) later
  have hsize : s.store.size < (next s step).2.store.size :=
    Store.lt_size_of_node_ne (by rw [hn]; exact Node.noConfusion)
  have hn' := hlater.node_eq hn rfl hsize
  have htext := renderValue_of_node hn'
  refine ⟨isJoined_of_node hn', htext, fun hpad => ?_, fun on hon => refuses_of_node hon hn'⟩
  rw [htext, hlater.truthy_eq hpad]

/-- A selector and an object with a fixed text, ready to be joined. -/
def twoOperands : List Step := [
  .make "b" .standardBuilder,
  .make "x" (.selector none),
  .append "x" .element "a" none,
  .make "y" (.fixed "b")]

theorem snapshot_twoOperands :
    let made := (next (runFrom {} twoOperands).2 (.combine "b" "x" (.member .child) "y" "c")).2
    ∃ v, Fields.get? "c" made.scope = some v ∧
      ∀ later, (runFrom made later).2.store.renderValue v = .ok (.str "a > b") := by
  obtain ⟨answer, hok⟩ : ∃ answer, (next (runFrom {} twoOperands).2
      (.combine "b" "x" (.member .child) "y" "c")).1.outcome = .ok answer := ⟨_, rfl⟩
  have hx : (runFrom {} twoOperands).2.store.renderValue (.ref 6) = .ok (.str "a") := by
    decide +kernel
  have hy : (runFrom {} twoOperands).2.store.renderValue (.ref 10) = .ok (.str "b") := by
    decide +kernel
  obtain ⟨v, pad, hv, hlater⟩ := snapshot rfl rfl rfl hx hy hok
  refine ⟨v, hv, fun later => ?_⟩
  cases hv
  obtain rfl : pad = .bool true := Except.ok.inj ((hlater []).1.pad.symm.trans rfl)
  exact (hlater later).2.2.1 (Store.settled_scalar fun _ => Value.noConfusion)

/-! ### a padding that changes -/

/-- A builder whose padding is an empty list. -/
def paddedByList : List Step := [
  .make "l" (.list []),
  .make "p" (.plain [("pad_combinator", .variable "l")]),
  .make "b" (.builder none),
  .set "b" "config" (.variable "p"),
  .make "x" (.fixed "a"),
  .make "y" (.fixed "b")]

def joinedByList : Step := .combine "b" "x" (.text ">") "y" "c"

/-- The list becomes the list of classes of a selector, and a class is appended. -/
def listFilled : List Step := [
  .make "s" (.selector none),
  .set "s" "_classes" (.variable "l"),
  .append "s" .styleClass "z" none]

theorem text_changes_listFilled :
    let s := (runFrom {} paddedByList).2
    let made := (next s joinedByList).2
    let s' := (runFrom made listFilled).2
    (∃ answer, (next s joinedByList).1.outcome = .ok answer) ∧
      Fields.get? "x" s.scope = some (.ref 6) ∧ s.store.renderValue (.ref 6) = .ok (.str "a") ∧
      Fields.get? "y" s.scope = some (.ref 7) ∧ s.store.renderValue (.ref 7) = .ok (.str "b") ∧
      Fields.get? "c" made.scope = some (.ref 8) ∧
      made.store.renderValue (.ref 8) = .ok (.str "a>b") ∧
      s'.store.renderValue (.ref 8) = .ok (.str "a > b") :=
  ⟨⟨_, rfl⟩, rfl, by decide +kernel, rfl, by decide +kernel, rfl, by decide +kernel,
    by decide +kernel⟩

end Session

end SelectorForge
