import SelectorForge.Proofs.Session.Making
import SelectorForge.Session.Step

/-!
# Steps of a session obey a policy

A step changes the object that it names and what it makes, and nothing else. So it obeys a policy
for which that object is open, and the names stand for admitted values after it:

* `Policy.Allows`          the steps that change open objects only;
* `Policy.perform_obeys`   a step, up to its answer;
* `Policy.next_keeps`      a step, from a state to the next.
-/

namespace SelectorForge

open Effect Session

namespace Session

/-! ### names -/

theorem run_named {scope : Scope} {name : Text} {v : Value} (h : Fields.get? name scope = some v)
    (w : World) : (named scope name).run w = (.ok v, w) := by
  unfold named
  rw [h]
  rfl

theorem named_bind_eq_ok {α : Type} {scope : Scope} {name : Text} {f : Value → Effect α}
    {w w' : World} {a : α} (h : (named scope name >>= f).run w = (.ok a, w')) :
    ∃ v, Fields.get? name scope = some v ∧ (f v).run w = (.ok a, w') := by
  unfold named at h
  cases hv : Fields.get? name scope with
  | none =>
    rw [hv] at h
    cases h
  | some v =>
    rw [hv] at h
    exact ⟨v, rfl, h⟩

/-- A step that is answered has been performed. -/
theorem perform_of_isOk {s : State} {step : Step} (h : (next s step).1.outcome.isOk = true) :
    ∃ out w, (perform s.scope step).run { store := s.store } = (.ok out, w) := by
  unfold next at h
  rcases hrun : (perform s.scope step).run { store := s.store } with ⟨fault | out, w⟩
  · rw [hrun] at h
    cases h
  · exact ⟨out, w, rfl⟩

end Session

/-- The values that stand in the recipe of a step itself. -/
def Session.Step.values : Step → List Value
  | .make _ recipe | .set _ _ recipe => recipe.values
  | _ => []

namespace Policy

variable {D : Policy} {α : Type} {st : Store} {scope : Scope}

/-- The name stands for no object that is closed. -/
def OpensNamed (D : Policy) (scope : Scope) (name : Text) : Prop :=
  ∀ r, Fields.get? name scope = some (.ref r) → D.Opens r

/-- What a step changes, and what it reads in order to put it elsewhere, has to be open. -/
def Allows (D : Policy) (scope : Scope) : Step → Prop
  | .factory on _ _ _ | .append on _ _ _ | .set on _ _ | .delete on _ => D.OpensNamed scope on
  | .extendCopy on property _ =>
    D.OpensNamed scope on ∨ Store.listProperties.contains property = true
  | .get on name => D.OpensNamed scope on ∨ name ≠ Name.attributeTable
  | _ => True

/-- Where everything is open, every step is allowed. -/
theorem allows_of_opens (hopens : ∀ r, D.Opens r) (scope : Scope) (step : Step) :
    D.Allows scope step := by
  have hnamed : ∀ on, D.OpensNamed scope on := fun _ r _ => hopens r
  cases step with
  | factory on | append on | set on | delete on => exact hnamed on
  | extendCopy on | get on => exact Or.inl (hnamed on)
  | make | combine | join | state | render | plain | display | area | equal | toJson => trivial

/-! ### displays -/

theorem named_bind_obeys {name : Text} {f : Value → Effect α} {Q : Store → α → Prop}
    (hst : D.Holds st) (hf : ∀ v, Fields.get? name scope = some v → D.Obeys st (f v) Q) :
    D.Obeys st (named scope name >>= f) Q := by
  unfold named
  split
  · next v hv => exact hf v hv
  · exact obeys_fail hst _

theorem AdmitsScope.free (h : D.AdmitsScope st scope) {name : Text} (hopen : D.OpensNamed scope name)
    {v : Value} (hv : Fields.get? name scope = some v) : D.Free st v :=
  ⟨h name v hv, fun r hr => hopen r (hr ▸ hv)⟩

theorem display_obeys (hst : D.Holds st) (v : Value) : D.Obeys st (display v) fun _ _ => True := by
  refine obeys_query_bind hst fun type _ => obeys_query_bind hst fun shown _ => ?_
  split
  · exact obeys_query_bind hst fun t _ => obeys_pure hst trivial
  · exact obeys_pure hst trivial

theorem displayAttribute_obeys (hst : D.Holds st) {v : Value} (hv : D.Admits st v) {name : Text}
    (hfree : D.Free st v ∨ name ≠ Name.attributeTable) :
    D.Obeys st (displayAttribute v name) fun _ _ => True := by
  refine obeys_query_bind hst fun aspect _ => ?_
  split
  · exact obeys_query_bind hst fun t _ => obeys_pure hst trivial
  · exact (get_obeys hst hv hfree).bind fun st₁ u hst₁ _ _ => display_obeys hst₁ u

/-- The list of a property can be extended: either it is a copy, or the object is open. -/
theorem extendCopy_obeys (hst : D.Holds st) {v : Value} (hv : D.Admits st v) {property item : Text}
    (hfree : D.Free st v ∨ Store.listProperties.contains property = true) {e : Effect α}
    {Q : Store → α → Prop}
    (he : ∀ st', D.Holds st' → D.Admits st' v → D.Obeys st' e Q) :
    D.Obeys st (do
      let list ← get v property
      change fun st => st.push list (.str item)
      e) Q := by
  have hitem : ∀ st : Store, D.Admits st (.str item) := fun _ =>
    D.admits_scalar fun _ => Value.noConfusion
  have hname : D.Free st v ∨ property ≠ Name.attributeTable := hfree.imp_right fun h => by
    rintro rfl
    exact absurd h (by decide)
  refine (get_obeys hst hv hname).bind fun st₁ list hst₁ h₁ hlist => ?_
  refine (obeys_change hst₁ fun st₂ hpush => ?_).bind fun st₂ _ hst₂ h₂ _ =>
    he st₂ hst₂ (D.admits_mono (Nat.le_trans h₁ h₂) hv)
  refine holds_push hst₁ (hlist ?_) (hitem st₁) hpush
  by_cases hopen : D.Free st v
  · exact Or.inl hopen
  · -- a closed object is a selector, and it has the property
    have hcontains := hfree.resolve_left hopen
    obtain ⟨r, rfl, hr⟩ : ∃ r, v = .ref r ∧ ¬ D.Opens r := by
      simpa only [Free, hv, true_and, not_forall, exists_prop] using hopen
    obtain ⟨attributes, hn⟩ : ∃ attributes, st.node r = .record .selector attributes := by
      by_contra hne
      exact hr (D.opens_of_ne_selector hst hv fun attributes hn => hne ⟨attributes, hn⟩)
    refine Or.inr ⟨?_, hcontains⟩
    have hmem : property ∈ Store.listProperties := List.contains_iff_mem.mp hcontains
    simp only [Store.listProperties, List.mem_cons, List.not_mem_nil, or_false] at hmem
    simp only [Store.property?, hn]
    rcases hmem with rfl | rfl | rfl <;> decide

/-! ### steps -/

/-- Nothing is bound, or an admitted value. -/
def Binds (D : Policy) (st : Store) (out : Answer × Option (Text × Value)) : Prop :=
  ∀ name v, out.2 = some (name, v) → D.Admits st v

theorem binds_none (answer : Answer) : D.Binds st (answer, none) := fun _ _ h => by cases h

theorem binds_some {v : Value} (hv : D.Admits st v) (answer : Answer) (name : Text) :
    D.Binds st (answer, some (name, v)) := fun _ _ h => by
  cases h
  exact hv

/-- What has been appended to is shown, and it can be bound to a name. -/
theorem append_portrait_obeys (hst : D.Holds st) {v : Value} (hv : D.Free st v) (stage : Stage)
    (value : Text) {into : Value → Option (Text × Value)}
    (hinto : ∀ u name w, into u = some (name, w) → w = u) :
    D.Obeys st (do
      let u ← append v stage value
      pure (Answer.portrait (← portrait u), into u)) D.Binds := by
  refine (append_obeys hst hv stage value).bind fun st₁ u hst₁ _ hu => ?_
  refine (portrait_obeys hst₁ hu.1).bind fun st₂ p hst₂ h₂ _ => obeys_pure hst₂ fun name w hw => ?_
  rw [hinto u name w hw]
  exact D.admits_mono h₂ hu.1

theorem textOf_bind_obeys (hst : D.Holds st) {c : Value} (hc : D.Admits st c) (into : Text) :
    D.Obeys st (do
      pure (Answer.document (← documentOf (← textOf c)), some (into, c))) D.Binds :=
  obeys_query_bind hst fun _ _ => obeys_query_bind hst fun _ _ =>
    obeys_pure hst (binds_some hc _ _)

/-- **A step obeys a policy** that allows it. -/
theorem perform_obeys {step : Step} (h : D.Grants st scope step.values)
    (hallows : D.Allows scope step) : D.Obeys st (perform scope step) D.Binds := by
  have hst := h.holds
  have hscope := h.scope
  cases step with
  | make into recipe =>
    refine (make_obeys recipe h).bind fun st₁ v hst₁ _ hv => ?_
    exact obeys_query_bind hst₁ fun type _ => obeys_pure hst₁ (binds_some hv _ _)
  | factory builder stage value into =>
    refine named_bind_obeys hst fun v hv => ?_
    refine append_portrait_obeys hst (hscope.free hallows hv) stage value fun u name w hw => ?_
    cases hw
    rfl
  | append selector stage value into =>
    refine named_bind_obeys hst fun v hv => ?_
    refine append_portrait_obeys hst (hscope.free hallows hv) stage value fun u name w hw => ?_
    obtain ⟨_, _, he⟩ := Option.map_eq_some_iff.mp hw
    cases he
    rfl
  | combine builder left combinator right into =>
    refine named_bind_obeys hst fun b hb => ?_
    refine (checkCombines_obeys hst b).bind ?_
    rintro _ _ _ _ rfl
    refine named_bind_obeys hst fun l hl => named_bind_obeys hst fun r hr => ?_
    refine (combine_obeys hst (hscope _ _ hb) (hscope _ _ hl) (hscope _ _ hr) _).bind
      fun st₁ c hst₁ _ hc => ?_
    exact textOf_bind_obeys hst₁ hc.1 into
  | join left combinator right pad into =>
    refine named_bind_obeys hst fun l hl => named_bind_obeys hst fun r hr => ?_
    refine (combinationOf_obeys hst (hscope _ _ hl) (hscope _ _ hr)
      (D.admits_scalar fun _ => Value.noConfusion) _).bind fun st₁ c hst₁ _ hc => ?_
    exact textOf_bind_obeys hst₁ hc.1 into
  | state selector =>
    refine named_bind_obeys hst fun v hv => ?_
    exact (portrait_obeys hst (hscope _ _ hv)).bind fun st₁ p hst₁ _ _ =>
      obeys_pure hst₁ (binds_none _)
  | extendCopy selector property item =>
    refine named_bind_obeys hst fun v hv => ?_
    have hfree := hallows.imp_left fun hopen => hscope.free hopen hv
    refine extendCopy_obeys hst (hscope _ _ hv) hfree fun st₁ hst₁ hv₁ => ?_
    exact (portrait_obeys hst₁ hv₁).bind fun st₂ p hst₂ _ _ => obeys_pure hst₂ (binds_none _)
  | render on =>
    refine named_bind_obeys hst fun v hv => obeys_query_bind hst fun t _ => ?_
    exact obeys_query_bind hst fun d _ => obeys_pure hst (binds_none _)
  | plain on =>
    refine named_bind_obeys hst fun v hv => obeys_query_bind hst fun t _ => ?_
    exact obeys_pure hst (binds_none _)
  | display on =>
    refine named_bind_obeys hst fun v hv => (display_obeys hst v).bind fun st₁ a hst₁ _ _ => ?_
    exact obeys_pure hst₁ (binds_none _)
  | area on =>
    refine named_bind_obeys hst fun v hv => ?_
    refine (Made.obeys hst fun u st' harea => area_made hst (hscope _ _ hv) harea).bind
      fun st₁ u hst₁ _ _ => (display_obeys hst₁ u).bind fun st₂ a hst₂ _ _ => ?_
    exact obeys_pure hst₂ (binds_none _)
  | get on name =>
    refine named_bind_obeys hst fun v hv => ?_
    have hfree := hallows.imp_left fun hopen => hscope.free hopen hv
    refine (displayAttribute_obeys hst (hscope _ _ hv) hfree).bind fun st₁ a hst₁ _ _ => ?_
    exact obeys_pure hst₁ (binds_none _)
  | set on name recipe =>
    refine named_bind_obeys hst fun v hv => ?_
    refine (make_obeys recipe h).bind fun st₁ value hst₁ h₁ hvalue => ?_
    refine (obeys_change hst₁ fun st₂ hset => ?_).bind fun st₂ _ hst₂ _ _ =>
      obeys_pure hst₂ (binds_none _)
    exact holds_setAttribute hst₁ (hscope.free hallows hv).2 hvalue hset
  | delete on name =>
    refine named_bind_obeys hst fun v hv => ?_
    refine (obeys_change hst fun st₁ hdelete => ?_).bind fun st₁ _ hst₁ _ _ =>
      obeys_pure hst₁ (binds_none _)
    exact holds_deleteAttribute hst (hscope.free hallows hv).2 hdelete
  | equal on other =>
    refine named_bind_obeys hst fun a ha => named_bind_obeys hst fun b hb => ?_
    exact obeys_query_bind hst fun e _ => obeys_pure hst (binds_none _)
  | toJson on =>
    refine named_bind_obeys hst fun v hv => obeys_query_bind hst fun t _ => ?_
    exact obeys_pure hst (binds_none _)

theorem AdmitsScope.put (h : D.AdmitsScope st scope) {name : Text} {v : Value}
    (hv : D.Admits st v) : D.AdmitsScope st (Fields.put name v scope) := by
  intro other u hu
  by_cases hother : name = other
  · rw [← hother, Fields.get?_put_self] at hu
    cases hu
    exact hv
  · rw [Fields.get?_put_of_ne hother] at hu
    exact h other u hu

/-- **A step keeps a policy** that allows it, whatever it answers. -/
theorem next_keeps {s : State} {step : Step} (h : D.Grants s.store s.scope step.values)
    (hallows : D.Allows s.scope step) :
    D.Holds (next s step).2.store ∧ s.store.size ≤ (next s step).2.store.size ∧
      D.AdmitsScope (next s step).2.store (next s step).2.scope := by
  obtain ⟨hst, hsize, hbinds⟩ := perform_obeys h hallows []
  unfold next
  rcases hrun : (perform s.scope step).run ⟨s.store, []⟩ with ⟨fault | ⟨answer, binding⟩, w⟩
  · rw [hrun] at hst hsize
    exact ⟨hst, hsize, h.scope.mono hsize⟩
  · rw [hrun] at hst hsize hbinds
    refine ⟨hst, hsize, ?_⟩
    cases binding with
    | none => exact h.scope.mono hsize
    | some bound =>
      obtain ⟨name, v⟩ := bound
      exact (h.scope.mono hsize).put (hbinds _ rfl name v rfl)

end Policy

end SelectorForge
