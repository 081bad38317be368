import SelectorForge.Proofs.Session.Apart

/-!
# A session, as seen from a selector

Among all the steps of a session only the calls to a selector make it another one. Each of them is
answered as by a compound selector outside any session:

* `Session.callsTo`         the calls to an object, through any of its names;
* `Session.Spared`          no step assigns to the object, deletes from it or reaches its lists;
* `Session.Keeps`           an object stands for a selector that no one else reaches into;
* `Session.keeps_call`      a call to this selector;
* `Session.keeps_other`     any other step;
* `Session.keeps_runFrom`   a list of steps.
-/

namespace SelectorForge

open Effect

namespace Session

/-! ### calls -/

/-- What comes of a step, and what is noted. -/
abbrev Outcome := Except Fault Answer × List Text

def Report.result (r : Report) : Outcome := (r.outcome, r.notes)

/-- The fragment that a step appends to an object. -/
def Step.call? (r : Ref) (scope : Scope) : Step → Option Fragment
  | .append on stage value _ | .factory on stage value _ =>
    if Fields.get? on scope = some (.ref r) then some ⟨stage, value⟩ else none
  | _ => none

/-- The calls to an object in a list of steps, each with what has come of it. -/
def callsTo (r : Ref) (s : State) : List Step → List (Fragment × Outcome)
  | [] => []
  | step :: steps =>
    let later := callsTo r (next s step).2 steps
    match step.call? r s.scope with
    | some f => (f, (next s step).1.result) :: later
    | none => later

/-- A step that neither assigns to an object nor deletes from it, and extends only copies of its
lists. -/
def Step.Spares (r : Ref) (scope : Scope) : Step → Prop
  | .set on _ _ | .delete on _ => Fields.get? on scope ≠ some (.ref r)
  | .extendCopy on property _ =>
    Fields.get? on scope = some (.ref r) → Store.listProperties.contains property = true
  | _ => True

def Spared (r : Ref) (s : State) : List Step → Prop
  | [] => True
  | step :: steps => step.Spares r s.scope ∧ Spared r (next s step).2 steps

end Session

namespace Compound

open Session

/-- What a selector outside any session answers to a fragment. -/
def answer (c : Compound) (f : Fragment) : Outcome :=
  match c.append f.stage f.value with
  | .ok c' => (.ok (.portrait c'.portrait), [])
  | .error rejection => (.error (.rejected rejection), [rejection.note])

/-- What is left of a selector after several attempts to append. -/
def attemptAll (c : Compound) (fs : List Fragment) : Compound :=
  fs.foldl (fun c f => c.attempt f.stage f.value) c

def answers (c : Compound) : List Fragment → List Outcome
  | [] => []
  | f :: fs => c.answer f :: (c.attempt f.stage f.value).answers fs

theorem answers_append (c : Compound) (fs gs : List Fragment) :
    c.answers (fs ++ gs) = c.answers fs ++ (c.attemptAll fs).answers gs := by
  induction fs generalizing c with
  | nil => rfl
  | cons f fs ih => exact congrArg (c.answer f :: ·) (ih _)

theorem attemptAll_append (c : Compound) (fs gs : List Fragment) :
    c.attemptAll (fs ++ gs) = (c.attemptAll fs).attemptAll gs :=
  List.foldl_append

end Compound

namespace Session

variable {l : Layout} {G : Ref → Prop} {st : Store} {s : State} {r : Ref} {c : Compound}

/-! ### one call -/

/-- Appends a fragment and answers with a portrait. -/
def appendShown (v : Value) (f : Fragment) (into : Value → Option (Text × Value)) :
    Effect (Answer × Option (Text × Value)) := do
  let u ← append v f.stage f.value
  pure (.portrait (← portrait u), into u)

theorem kept_portrait (h : l.Kept G st r c) (notes : List Text) :
    ∃ st', (portrait (.ref r)).run ⟨st, notes⟩ = (.ok c.portrait, ⟨st', notes⟩) ∧
      l.Kept G st' r c ∧ st.size ≤ st'.size := by
  obtain ⟨st', he, hrun⟩ := h.represents.run_portrait h.config notes
  have hobeys := @Policy.portrait_obeys (Policy.reserve l G r c) st h (.ref r) h.admits_self notes
  rw [hrun] at hobeys
  exact ⟨st', hrun, hobeys.1, he.size_le⟩

theorem run_appendShown (h : l.Kept G st r c) (notes : List Text) (f : Fragment)
    (into : Value → Option (Text × Value)) :
    match c.append f.stage f.value with
    | .error rejection => (appendShown (.ref r) f into).run ⟨st, notes⟩
        = (.error (.rejected rejection), ⟨st, notes ++ [rejection.note]⟩)
    | .ok c' => ∃ st', (appendShown (.ref r) f into).run ⟨st, notes⟩
        = (.ok (.portrait c'.portrait, into (.ref r)), ⟨st', notes⟩) ∧
        l.Kept G st' r c' ∧ st.size ≤ st'.size := by
  have hrun := h.run_append notes f.stage f.value
  unfold appendShown
  cases hc : c.append f.stage f.value with
  | error rejection =>
    rw [hc] at hrun
    simp only
    rw [run_bind, hrun]
  | ok c' =>
    rw [hc] at hrun
    obtain ⟨st₁, hrun, h₁, hsize⟩ := hrun
    obtain ⟨st₂, hshown, h₂, hle⟩ := kept_portrait h₁ notes
    refine ⟨st₂, ?_, h₂, hsize ▸ hle⟩
    rw [run_bind, hrun]
    simp only
    rw [run_bind, hshown]
    rfl

/-! ### the state, as seen from a selector -/

/-- An object stands for a compound selector, and no name leads to its lists. -/
def Keeps (l : Layout) (r : Ref) (s : State) (c : Compound) : Prop :=
  ∃ G, l.Kept G s.store r c ∧ (Policy.reserve l G r c).AdmitsScope s.store s.scope ∧
    s.store.Public (l.Hides G) (.ref standardBuilderRef)

/-- The selector of a state, in the end. -/
theorem Keeps.run_portrait (h : Keeps l r s c) :
    ((portrait (.ref r)).run { store := s.store }).1 = .ok c.portrait := by
  obtain ⟨G, hkept, _⟩ := h
  obtain ⟨st', hrun, _⟩ := kept_portrait hkept []
  exact congrArg Prod.fst hrun

/-- What a step appends, and what it binds. -/
theorem perform_call {step : Step} {f : Fragment} (hcall : step.call? r s.scope = some f) :
    ∃ on into, perform s.scope step
        = (named s.scope on >>= fun v => appendShown v f into) ∧
      Fields.get? on s.scope = some (.ref r) ∧
      ∀ u name v, into u = some (name, v) → v = u := by
  cases step with
  | factory on stage value into =>
    simp only [Step.call?] at hcall
    split at hcall
    · next hon =>
      cases hcall
      refine ⟨on, fun u => some (into, u), rfl, hon, fun u name v h => ?_⟩
      cases h
      rfl
    · cases hcall
  | append on stage value into =>
    simp only [Step.call?] at hcall
    split at hcall
    · next hon =>
      cases hcall
      refine ⟨on, fun u => into.map fun name => (name, u), rfl, hon, fun u name v h => ?_⟩
      obtain ⟨_, _, he⟩ := Option.map_eq_some_iff.mp h
      cases he
      rfl
    · cases hcall
  | make | combine | join | state | extendCopy | render | plain | display | area | get | set
  | delete | equal | toJson => cases hcall

/-- A step that comes down to appending to a kept selector. -/
theorem keeps_shown {st : Store} {step : Step} {f : Fragment} {into : Value → Option (Text × Value)}
    (hkept : l.Kept G st r c) (hscope : (Policy.reserve l G r c).AdmitsScope st s.scope)
    (hstandard : st.Public (l.Hides G) (.ref standardBuilderRef))
    (hinto : ∀ u name v, into u = some (name, v) → v = u)
    (hrun : (perform s.scope step).run { store := s.store }
      = (appendShown (.ref r) f into).run { store := st }) :
    (next s step).1.result = c.answer f ∧
      Keeps l r (next s step).2 (c.attempt f.stage f.value) := by
  have hshown := run_appendShown hkept [] f into
  unfold Compound.answer Compound.attempt next
  rw [hrun]
  cases hc : c.append f.stage f.value with
  | error rejection =>
    rw [hc] at hshown
    simp only [hshown]
    exact ⟨rfl, G, hkept, hscope, hstandard⟩
  | ok c' =>
    rw [hc] at hshown
    obtain ⟨st', hshown, hkept', hsize⟩ := hshown
    simp only [hshown]
    refine ⟨rfl, G, hkept', ?_, hstandard.mono hsize⟩
    have hlater : (Policy.reserve l G r c').AdmitsScope st' s.scope := fun name v hv =>
      (hscope name v hv).mono hsize
    cases hbound : into (.ref r) with
    | none => exact hlater
    | some bound =>
      obtain ⟨name, v⟩ := bound
      rw [hinto _ _ _ hbound]
      exact hlater.put hkept'.admits_self

/-- **A call to a kept selector** is answered as by a selector outside any session. -/
theorem keeps_call (h : Keeps l r s c) {step : Step} {f : Fragment}
    (hcall : step.call? r s.scope = some f) :
    (next s step).1.result = c.answer f ∧ Keeps l r (next s step).2 (c.attempt f.stage f.value) := by
  obtain ⟨G, hkept, hscope, hstandard⟩ := h
  obtain ⟨on, into, hperform, hon, hinto⟩ := perform_call hcall
  refine keeps_shown hkept hscope hstandard hinto ?_
  rw [hperform, run_bind, run_named hon]

/-! ### other steps -/

theorem display_run_world (v : Value) (w : World) : ((display v).run w).2 = w := by
  unfold display
  rw [run_bind, run_query]
  simp only
  rw [run_bind, run_query]
  simp only
  split
  · rw [run_bind, run_query]
    cases w.store.showValue v <;> rfl
  · rfl

/-- The table of the attributes of a selector is made for the answer. -/
theorem run_displayAttribute_table (h : l.Represents st r c) (notes : List Text) :
    ∃ out n, (displayAttribute (.ref r) Name.attributeTable).run ⟨st, notes⟩
      = (out, ⟨(st.alloc n).2, notes⟩) := by
  have hoperation : st.isOperation (.ref r) Name.attributeTable = false := by
    simp only [Store.isOperation, h.object]
    rfl
  have haspect : Aspect.ofName? st (.ref r) Name.attributeTable = none := by
    unfold Aspect.ofName?
    rw [hoperation]
    rfl
  have hproperty : st.property? (.ref r) Name.attributeTable = none := by
    simp only [Store.property?, h.object]
    rfl
  have hwhole : st.whole? (.ref r) Name.attributeTable
      = some (.made (.table (st.entries (.own (l.fields c))))) := by
    simp only [Store.whole?, h.object, if_true]
    rfl
  have hget : (Effect.get (.ref r) Name.attributeTable).run ⟨st, notes⟩ = (.ok (.ref st.size),
      ⟨(st.alloc (.table (st.entries (.own (l.fields c))))).2, notes⟩) := by
    unfold Effect.get
    rw [run_bind, run_query, hproperty]
    simp only
    unfold getWhole
    rw [run_bind, run_query, hwhole]
    rfl
  refine ⟨((display (.ref st.size)).run
    ⟨(st.alloc (.table (st.entries (.own (l.fields c))))).2, notes⟩).1,
    .table (st.entries (.own (l.fields c))), ?_⟩
  unfold displayAttribute
  rw [run_bind, run_query, haspect]
  simp only
  rw [run_bind, hget]
  exact Prod.ext rfl (display_run_world _ _)

theorem keeps_table (h : Keeps l r s c) {on : Text}
    (hon : Fields.get? on s.scope = some (.ref r)) :
    Keeps l r (next s (.get on Name.attributeTable)).2 c := by
  obtain ⟨G, hkept, hscope, hstandard⟩ := h
  obtain ⟨out, n, hrun⟩ := run_displayAttribute_table hkept.represents []
  have hwider : ∀ {v}, s.store.Public (l.Hides G) v →
      (s.store.alloc n).2.Public (l.Hides fun q => G q ∨ q = s.store.size) v := fun hv =>
    (Layout.public_widen hv).mono (Nat.le_of_lt (s.store.size_lt_alloc n))
  have hstate : (next s (.get on Name.attributeTable)).2 = ⟨(s.store.alloc n).2, s.scope⟩ := by
    unfold next perform
    rw [run_bind, run_named hon]
    simp only
    rw [run_bind, hrun]
    cases out <;> rfl
  rw [hstate]
  exact ⟨_, hkept.alloc_garbage n, fun name v hv => hwider (hscope name v hv), hwider hstandard⟩

/-- **Any other step** leaves a selector as it is, if it spares it. -/
theorem keeps_other (h : Keeps l r s c) {step : Step} (hcall : step.call? r s.scope = none)
    (hspares : step.Spares r s.scope) (hvalues : step.values = []) :
    Keeps l r (next s step).2 c := by
  have hkeeps := h
  obtain ⟨G, hkept, hscope, hstandard⟩ := h
  have hgrants : (Policy.reserve l G r c).Grants s.store s.scope step.values :=
    ⟨hkept, hscope, hstandard, fun v hv => by rw [hvalues] at hv; cases hv⟩
  -- a name that is not bound to the selector is bound to nothing that is closed
  have hopens : ∀ {on}, Fields.get? on s.scope ≠ some (.ref r) →
      (Policy.reserve l G r c).OpensNamed s.scope on := by
    rintro on hne q hq (rfl | hhides)
    · exact hne hq
    · exact (hscope on _ hq q rfl).2 hhides
  have hnext : (Policy.reserve l G r c).Allows s.scope step → Keeps l r (next s step).2 c := by
    intro hallows
    obtain ⟨hkept', hsize, hscope'⟩ := Policy.next_keeps hgrants hallows
    exact ⟨G, hkept', hscope', hstandard.mono hsize⟩
  cases step with
  | factory on stage value into =>
    refine hnext (hopens fun hon => ?_)
    rw [Step.call?, if_pos hon] at hcall
    cases hcall
  | append on stage value into =>
    refine hnext (hopens fun hon => ?_)
    rw [Step.call?, if_pos hon] at hcall
    cases hcall
  | set on name recipe => exact hnext (hopens hspares)
  | delete on name => exact hnext (hopens hspares)
  | extendCopy on property item =>
    by_cases hon : Fields.get? on s.scope = some (.ref r)
    · exact hnext (Or.inr (hspares hon))
    · exact hnext (Or.inl (hopens hon))
  | get on name =>
    by_cases hon : Fields.get? on s.scope = some (.ref r)
    · by_cases hname : name = Name.attributeTable
      · rw [hname]
        exact keeps_table hkeeps hon
      · exact hnext (Or.inr hname)
    · exact hnext (Or.inl (hopens hon))
  | make | combine | join | state | render | plain | display | area | equal | toJson =>
    exact hnext trivial

/-- **A session, as seen from a selector**: the calls to it are answered as if there were nothing
else, and it becomes what they make of it. -/
theorem keeps_runFrom (h : Keeps l r s c) {steps : List Step} (hspared : Spared r s steps)
    (hvalues : ∀ step ∈ steps, step.values = []) :
    (callsTo r s steps).map Prod.snd = c.answers ((callsTo r s steps).map Prod.fst) ∧
      Keeps l r (runFrom s steps).2 (c.attemptAll ((callsTo r s steps).map Prod.fst)) := by
  induction steps generalizing s c with
  | nil => exact ⟨rfl, h⟩
  | cons step steps ih =>
    obtain ⟨hspares, hspared⟩ := hspared
    obtain ⟨hvalue, hvalues⟩ := List.forall_mem_cons.mp hvalues
    show (callsTo r s (step :: steps)).map Prod.snd = _ ∧
      Keeps l r (runFrom (next s step).2 steps).2 _
    unfold callsTo
    cases hcall : step.call? r s.scope with
    | none => exact ih (keeps_other h hcall hspares hvalue) hspared hvalues
    | some f =>
      obtain ⟨hanswer, hkeeps⟩ := keeps_call h hcall
      obtain ⟨hanswers, hkeeps'⟩ := ih hkeeps hspared hvalues
      refine ⟨?_, hkeeps'⟩
      show (next s step).1.result :: _ = c.answer f :: _
      rw [hanswer, hanswers]

end Session

end SelectorForge
