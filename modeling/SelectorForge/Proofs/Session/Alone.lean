import SelectorForge.Proofs.Session.Keeping

/-!
# Selectors do not interfere

In a session with any number of selectors, builders and names, what comes of a fragment that is
appended to a selector, and what the selector is in the end, depend on the fragments that were
appended to this selector and on its first configuration. All other steps could as well be left out.

* `Session.Creates`      the steps that make a selector;
* `Session.keeps_made`   a new selector, and what was appended to it on the way;
* `Session.alone`        the session, and the session of the calls alone.
-/

namespace SelectorForge

open Effect

namespace Session

variable {l : Layout} {st : Store} {s : State} {r b : Ref} {c : Compound}

/-- The node of a configuration. -/
def configNode (config : Config) : Node :=
  .record .config (.own [(Name.separator, .str config.separator), (Name.pad, .bool config.pad)])

theorem ne_ref_of_mem_configNode {config : Config} {v : Value} (hv : v ∈ (configNode config).values)
    (q : Ref) : v ≠ .ref q := by
  rcases List.mem_cons.mp hv with rfl | hv
  · exact Value.noConfusion
  · rw [List.mem_singleton.mp hv]
    exact Value.noConfusion

/-! ### before a selector is made -/

/-- At first the builder leads to its configuration, and there is nothing else. -/
theorem bounded_initialStore : Policy.bounded.Grants initialStore [] [] where
  holds := by
    refine ⟨fun r _ v hv => ?_, fun _ v hv => absurd hv List.not_mem_nil⟩
    rcases r with _ | _ | r
    · exact Store.public_scalar (ne_ref_of_mem_configNode hv)
    · rw [List.mem_singleton.mp hv]
      exact fun q hq => ⟨Value.ref.inj hq ▸ Nat.zero_lt_two, id⟩
    · exact absurd hv List.not_mem_nil
  scope _ _ hv := by cases hv
  standard := fun q hq => ⟨Value.ref.inj hq ▸ Nat.one_lt_two, id⟩
  values _ hv := absurd hv List.not_mem_nil

theorem bounded_next (h : Policy.bounded.Grants s.store s.scope []) {step : Step}
    (hvalues : step.values = []) :
    Policy.bounded.Grants (next s step).2.store (next s step).2.scope [] := by
  have hgrants : Policy.bounded.Grants s.store s.scope step.values := hvalues ▸ h
  obtain ⟨hst, hsize, hscope⟩ := Policy.next_keeps hgrants
    (Policy.allows_of_opens (fun _ => trivial) s.scope step)
  exact ⟨hst, hscope, h.standard.mono hsize, fun _ hv => absurd hv List.not_mem_nil⟩

theorem bounded_runFrom (h : Policy.bounded.Grants s.store s.scope []) {steps : List Step}
    (hvalues : ∀ step ∈ steps, step.values = []) :
    Policy.bounded.Grants (runFrom s steps).2.store (runFrom s steps).2.scope [] := by
  induction steps generalizing s with
  | nil => exact h
  | cons step steps ih =>
    obtain ⟨hvalue, hvalues⟩ := List.forall_mem_cons.mp hvalues
    exact ih (bounded_next h hvalue) hvalues

/-! ### a selector is made -/

/-- A step makes a selector with a configuration and binds it to a name. A builder gives its own
configuration to the selector, and a first fragment. -/
inductive Creates (s : State) : Step → Text → Config → List (Fragment × Outcome) → Prop
  | direct (name : Text) (config : Option Config) :
    Creates s (.make name (.selector config)) name (config.getD {}) []
  | builder {step : Step} {on name value : Text} {stage : Stage} {b : Ref}
    {attributes : Attributes} {v : Value} {config : Config}
    (hstep : step = .factory on stage value name ∨ step = .append on stage value (some name))
    (hon : Fields.get? on s.scope = some (.ref b))
    (hbuilder : s.store.node b = .record .builder attributes)
    (hread : Store.recordAttribute .builder (s.store.fields attributes) Name.config = .ok v)
    (hconfig : s.store.Configures v config) (hok : (next s step).1.outcome.isOk = true) :
    Creates s step name config [(⟨stage, value⟩, (next s step).1.result)]

theorem configures_alloc (st : Store) (config : Config) :
    (st.alloc (configNode config)).2.Configures (.ref st.size) config :=
  ⟨st.size, _, rfl, Store.node_alloc_self _ _, rfl, rfl⟩

theorem run_configOr_of_configures {config : Config} {v : Value} {w : World}
    (h : w.store.Configures v config) : (configOr v).run w = (.ok v, w) := by
  obtain ⟨q, fields, rfl, hn, _⟩ := h
  have htruthy : w.store.truthy (.ref q) = true := by simp only [Store.truthy, hn]
  unfold configOr
  rw [run_bind, run_query]
  simp only [htruthy, if_true]
  rfl

/-- A store with a new selector and a configuration of its own. -/
def withConfigured (st : Store) (config : Config) : Store :=
  Layout.withSelector (st.alloc (configNode config)).2 (.ref st.size)

/-- What is made without a builder. -/
theorem run_newSelector_configValue (config : Option Config) (w : World) :
    (configValue config >>= newSelector).run w = (.ok (.ref (w.store.size + 4)),
      { w with store := withConfigured w.store (config.getD {}) }) := by
  have hnew : ∀ {v : Value} {w₁ : World}, (configOr v).run w₁ = (.ok (.ref w.store.size),
      { w with store := (w.store.alloc (configNode (config.getD {}))).2 }) →
      (newSelector v).run w₁ = (.ok (.ref (w.store.size + 4)),
        { w with store := withConfigured w.store (config.getD {}) }) := by
    intro v w₁ hv
    rw [Layout.run_newSelector hv, Store.size_alloc]
    rfl
  cases config with
  | none =>
    rw [configValue, run_bind, run_pure]
    exact hnew rfl
  | some config =>
    rw [configValue, run_bind]
    exact hnew (run_configOr_of_configures (configures_alloc w.store config))

/-- A new selector is kept. -/
theorem keeps_new (h : Policy.bounded.Grants s.store s.scope []) {v : Value} {config : Config}
    (hv : s.store.Configures v config) :
    let l := Layout.new s.store v
    let st := Layout.withSelector s.store v
    l.Kept (fun _ => False) st (s.store.size + 3) (.empty config) ∧
      (Policy.reserve l (fun _ => False) (s.store.size + 3) (.empty config)).AdmitsScope st s.scope ∧
      st.Public (l.Hides fun _ => False) (.ref standardBuilderRef) := by
  have hle := (Layout.extends_withSelector s.store v).size_le
  exact ⟨Layout.kept_withSelector h.holds hv,
    fun name u hu => (Layout.public_new (h.scope name u hu) v).mono hle,
    (Layout.public_new h.standard v).mono hle⟩

theorem run_append_eq_start {attributes : Attributes} {w : World} {stage : Stage} {value : Text}
    (hbuilder : w.store.node b = .record .builder attributes) :
    (append (.ref b) stage value).run w = (start attributes stage value).run w := by
  unfold append
  simp only
  rw [run_bind, run_query, hbuilder]

/-- A builder whose operations can be called appends to a new selector. -/
theorem run_append_builder {attributes : Attributes} {v : Value} {config : Config} {w : World}
    {stage : Stage} {value : Text} (hbuilder : w.store.node b = .record .builder attributes)
    (hcalls : ∀ name ∈ [Name.ofStage stage, Name.fresh],
      w.store.checkCallable (w.store.fields attributes) name = .ok ())
    (hread : Store.recordAttribute .builder (w.store.fields attributes) Name.config = .ok v)
    (hconfig : w.store.Configures v config) :
    (append (.ref b) stage value).run w = (append (.ref (w.store.size + 3)) stage value).run
      { w with store := Layout.withSelector w.store v } := by
  have hselector := (Layout.represents_withSelector w.store v config).object
  rw [run_append_eq_start hbuilder]
  unfold start checkOperation builderConfig
  rw [run_bind, run_query, hcalls _ List.mem_cons_self]
  simp only
  rw [run_bind, run_query, hcalls _ (List.mem_cons_of_mem _ List.mem_cons_self)]
  simp only
  rw [run_bind, run_query, hread]
  simp only
  rw [run_bind, Layout.run_newSelector (run_configOr_of_configures hconfig)]
  unfold append
  simp only
  rw [run_bind, run_query, hselector]

/-- The operations of a builder that has answered can be called. -/
theorem callable_of_append {attributes : Attributes} {u : Value} {w w' : World} {stage : Stage}
    {value : Text} (hbuilder : w.store.node b = .record .builder attributes)
    (hok : (append (.ref b) stage value).run w = (.ok u, w')) :
    ∀ name ∈ [Name.ofStage stage, Name.fresh],
      w.store.checkCallable (w.store.fields attributes) name = .ok () := by
  rw [run_append_eq_start hbuilder] at hok
  obtain ⟨_, hfirst, hok⟩ := run_query_bind_eq_ok hok
  obtain ⟨_, hsecond, -⟩ := run_query_bind_eq_ok hok
  exact List.forall_mem_cons.mpr ⟨hfirst, List.forall_mem_singleton.mpr hsecond⟩

/-- A selector that is made without a builder. -/
theorem keeps_make (h : Policy.bounded.Grants s.store s.scope []) (name : Text)
    (config : Option Config) :
    ∃ l r, Fields.get? name (next s (.make name (.selector config))).2.scope = some (.ref r) ∧
      Keeps l r (next s (.make name (.selector config))).2 (.empty (config.getD {})) := by
  have hmake : (make s.scope (.selector config)).run { store := s.store }
      = (.ok (.ref (s.store.size + 4)),
        { store := withConfigured s.store (config.getD {}) }) := by
    rw [make]
    exact run_newSelector_configValue config { store := s.store }
  have hstate : (next s (.make name (.selector config))).2
      = ⟨withConfigured s.store (config.getD {}),
        Fields.put name (.ref (s.store.size + 4)) s.scope⟩ := by
    unfold next perform
    rw [run_bind, hmake]
    rfl
  have hgrants : Policy.bounded.Grants (s.store.alloc (configNode (config.getD {}))).2 s.scope [] :=
    h.later (Policy.bounded.holds_alloc h.holds fun v hv =>
        Store.public_scalar (ne_ref_of_mem_configNode hv))
      (Nat.le_of_lt (s.store.size_lt_alloc _)) fun _ hv => hv
  have hnew := @keeps_new ⟨_, s.scope⟩ hgrants _ _ (configures_alloc s.store (config.getD {}))
  simp only [Store.size_alloc] at hnew
  obtain ⟨hkept, hscope, hstandard⟩ := hnew
  rw [hstate]
  exact ⟨_, _, Fields.get?_put_self _ _ _, _, hkept, hscope.put hkept.admits_self, hstandard⟩

/-- A selector that a builder makes, with its first fragment. -/
theorem keeps_built (h : Policy.bounded.Grants s.store s.scope []) {step : Step} {on name : Text}
    {f : Fragment} {attributes : Attributes} {v : Value} {config : Config}
    (hperform : perform s.scope step = (named s.scope on >>= fun v =>
      appendShown v f fun u => some (name, u)))
    (hon : Fields.get? on s.scope = some (.ref b))
    (hbuilder : s.store.node b = .record .builder attributes)
    (hread : Store.recordAttribute .builder (s.store.fields attributes) Name.config = .ok v)
    (hconfig : s.store.Configures v config) (hok : (next s step).1.outcome.isOk = true) :
    ∃ l r, Fields.get? name (next s step).2.scope = some (.ref r) ∧
      (next s step).1.result = (Compound.empty config).answer f ∧
      Keeps l r (next s step).2 ((Compound.empty config).attempt f.stage f.value) := by
  obtain ⟨hkept, hscope, hstandard⟩ := keeps_new h hconfig
  have hbuilt : (perform s.scope step).run { store := s.store }
      = (appendShown (.ref b) f fun u => some (name, u)).run { store := s.store } := by
    rw [hperform, run_bind, run_named hon]
  obtain ⟨out, w, hdone⟩ := perform_of_isOk hok
  rw [hbuilt] at hdone
  obtain ⟨u, w', happend, -⟩ := run_bind_eq_ok hdone
  have hcalls := callable_of_append (w := { store := s.store }) hbuilder happend
  have hrun : (perform s.scope step).run { store := s.store }
      = (appendShown (.ref (s.store.size + 3)) f fun u => some (name, u)).run
        { store := Layout.withSelector s.store v } := by
    rw [hbuilt]
    unfold appendShown
    rw [run_bind, run_bind, run_append_builder hbuilder hcalls hread hconfig]
  have hfirst : (Compound.empty config).append f.stage f.value
      = .ok ((Compound.empty config).place f.stage f.value) := by
    cases f.stage <;> rfl
  have hshown := run_appendShown hkept [] f fun u => some (name, u)
  rw [hfirst] at hshown
  obtain ⟨st', hshown, -⟩ := hshown
  have hbound : Fields.get? name (next s step).2.scope = some (.ref (s.store.size + 3)) := by
    unfold next
    rw [hrun, hshown]
    exact Fields.get?_put_self _ _ _
  obtain ⟨hresult, hkeeps⟩ := keeps_shown hkept hscope hstandard
    (fun u _ _ hu => (Prod.mk.inj (Option.some.inj hu)).2.symm) hrun
  exact ⟨_, _, hbound, hresult, hkeeps⟩

/-- **A selector that is made** is kept, and its first fragment is answered as by a selector outside
any session. -/
theorem keeps_made (h : Policy.bounded.Grants s.store s.scope []) {step : Step} {name : Text}
    {config : Config} {first : List (Fragment × Outcome)}
    (hcreates : Creates s step name config first) :
    ∃ l r, Fields.get? name (next s step).2.scope = some (.ref r) ∧
      first.map Prod.snd = (Compound.empty config).answers (first.map Prod.fst) ∧
      Keeps l r (next s step).2 ((Compound.empty config).attemptAll (first.map Prod.fst)) := by
  cases hcreates with
  | direct name config =>
    obtain ⟨l, r, hbound, hkeeps⟩ := keeps_make h name config
    exact ⟨l, r, hbound, rfl, hkeeps⟩
  | @builder step on name value stage b attributes v config hstep hon hbuilder hread hconfig hok =>
    have hperform : perform s.scope step = (named s.scope on >>= fun v =>
        appendShown v ⟨stage, value⟩ fun u => some (name, u)) := by
      rcases hstep with rfl | rfl <;> rfl
    obtain ⟨l, r, hbound, hresult, hkeeps⟩ := keeps_built h hperform hon hbuilder hread hconfig hok
    exact ⟨l, r, hbound, congrArg (fun result => [result]) hresult, hkeeps⟩

/-! ### the calls alone -/

/-- A selector with a configuration of its own, and nothing but calls to it. -/
def soleCalls (config : Config) (fs : List Fragment) : List Step :=
  .make "s" (.selector (some config)) :: fs.map fun f => .append "s" f.stage f.value none

/-- A step that binds nothing leaves the names as they are. -/
theorem next_append_scope (s : State) (on : Text) (stage : Stage) (value : Text) :
    (next s (.append on stage value none)).2.scope = s.scope := by
  unfold next
  rcases hrun : (perform s.scope (.append on stage value none)).run { store := s.store } with
    ⟨fault | ⟨answer, binding⟩, w⟩
  · rfl
  · obtain ⟨v, _, hrun⟩ := named_bind_eq_ok hrun
    obtain ⟨u, w₁, _, hrun⟩ := run_bind_eq_ok hrun
    obtain ⟨p, w₂, _, hrun⟩ := run_bind_eq_ok hrun
    cases hrun
    rfl

/-- Where there is nothing but calls, each step is one. -/
theorem runFrom_appends {on : Text} (hon : Fields.get? on s.scope = some (.ref r))
    (fs : List Fragment) :
    let steps := fs.map fun f => Step.append on f.stage f.value none
    (callsTo r s steps).map Prod.fst = fs ∧
      (callsTo r s steps).map Prod.snd = (runFrom s steps).1.map Report.result ∧
      Fields.get? on (runFrom s steps).2.scope = some (.ref r) ∧ Spared r s steps := by
  induction fs generalizing s with
  | nil => exact ⟨rfl, rfl, hon, trivial⟩
  | cons f fs ih =>
    let step := Step.append on f.stage f.value none
    have hon' : Fields.get? on (next s step).2.scope = some (.ref r) := by
      rw [next_append_scope, hon]
    obtain ⟨hfragments, hresults, hbound, hspared⟩ := ih hon'
    have hcall : step.call? r s.scope = some f := if_pos hon
    have hcalls : ∀ steps, callsTo r s (step :: steps)
        = (f, (next s step).1.result) :: callsTo r (next s step).2 steps := fun _ => by
      simp only [callsTo, hcall]
    rw [List.map_cons]
    intro steps
    rw [hcalls, List.map_cons, List.map_cons, hfragments, hresults]
    exact ⟨rfl, rfl, hbound, trivial, hspared⟩

/-- A session with nothing but calls to one selector. -/
theorem soleCalls_spec (config : Config) (fs : List Fragment) :
    let fresh := runFrom {} (soleCalls config fs)
    fresh.1.tail.map Report.result = (Compound.empty config).answers fs ∧
      ∃ l q, Fields.get? "s" fresh.2.scope = some (.ref q) ∧
        Keeps l q fresh.2 ((Compound.empty config).attemptAll fs) := by
  obtain ⟨l, q, hbound, -, hkeeps⟩ := keeps_made (s := {}) bounded_initialStore
    (.direct "s" (some config))
  obtain ⟨hfragments, hresults, hbound', hspared⟩ := runFrom_appends hbound fs
  obtain ⟨hanswers, hkeeps'⟩ := keeps_runFrom hkeeps hspared fun step hstep => by
    obtain ⟨f, _, rfl⟩ := List.mem_map.mp hstep
    rfl
  rw [hfragments] at hanswers hkeeps'
  exact ⟨hresults.symm.trans hanswers, l, q, hbound', hkeeps'⟩

/-- **Selectors do not interfere.** A step of a session makes a selector. If no later step assigns to
this selector, deletes from it or reaches its lists, then the calls to it, through any of its names,
are answered as in a session of these calls alone, on a new selector with the configuration it was
made with; and in the end both selectors have the same portrait. -/
theorem alone {before later : List Step} {step : Step} {name : Text} {config : Config}
    {first : List (Fragment × Outcome)}
    (hvalues : ∀ other ∈ before ++ step :: later, other.values = [])
    (hcreates : Creates (runFrom {} before).2 step name config first) :
    let made := (next (runFrom {} before).2 step).2
    ∃ r, Fields.get? name made.scope = some (.ref r) ∧
      (Spared r made later →
        let calls := first ++ callsTo r made later
        let fresh := runFrom {} (soleCalls config (calls.map Prod.fst))
        fresh.1.tail.map Report.result = calls.map Prod.snd ∧
        ∃ q p, Fields.get? "s" fresh.2.scope = some (.ref q) ∧
          ((portrait (.ref q)).run { store := fresh.2.store }).1 = .ok p ∧
          ((portrait (.ref r)).run { store := (runFrom made later).2.store }).1 = .ok p) := by
  obtain ⟨hbefore, hvalues⟩ := List.forall_mem_append.mp hvalues
  obtain ⟨-, hlater⟩ := List.forall_mem_cons.mp hvalues
  have hgrants := bounded_runFrom (s := {}) bounded_initialStore hbefore
  obtain ⟨l, r, hbound, hfirst, hkeeps⟩ := keeps_made hgrants hcreates
  refine ⟨r, hbound, fun hspared => ?_⟩
  obtain ⟨hrest, hkeeps'⟩ := keeps_runFrom hkeeps hspared hlater
  obtain ⟨hfresh, l', q, hq, hkept⟩ := soleCalls_spec config
    ((first ++ callsTo r (next (runFrom {} before).2 step).2 later).map Prod.fst)
  refine ⟨?_, q, _, hq, hkept.run_portrait, ?_⟩
  · rw [hfresh, List.map_append, List.map_append, Compound.answers_append, hfirst, hrest]
  · rw [List.map_append, Compound.attemptAll_append]
    exact hkeeps'.run_portrait

/-- Two builders that share a configuration, and a selector of one of them. -/
def sharedConfig : List Step := [
  .make "k" (.config ⟨", ", true⟩),
  .make "b" .standardBuilder,
  .make "b2" (.builder none),
  .set "b" "config" (.variable "k"),
  .set "b2" "config" (.variable "k"),
  .factory "b2" .styleClass "other" "y"]

def madeShared : Step := .factory "b" .element "a" "x"

/-- A selector grows under two names, and much else is done. -/
def interleaved : List Step := [
  .make "alias" (.variable "x"),
  .append "alias" .attr "p" none,
  .set "b" "config" (.config {}),
  .append "y" .attr "q" none,
  .append "x" .id "late" none,
  .extendCopy "x" "attributes" "stray",
  .combine "b2" "x" (.member .child) "y" "c",
  .append "x" .attr "r" (some "again")]

/-- The calls among these steps. -/
def laterCalls : List Fragment := [⟨.attr, "p"⟩, ⟨.id, "late"⟩, ⟨.attr, "r"⟩]

theorem alone_interleaved :
    ∃ q p,
      Fields.get? "s" (runFrom {} (soleCalls ⟨", ", true⟩ (⟨.element, "a"⟩ :: laterCalls))).2.scope
        = some (.ref q) ∧
      ((portrait (.ref q)).run { store :=
        (runFrom {} (soleCalls ⟨", ", true⟩ (⟨.element, "a"⟩ :: laterCalls))).2.store }).1 = .ok p ∧
      ((portrait (.ref 15)).run { store := (runFrom
        (next (runFrom {} sharedConfig).2 madeShared).2 interleaved).2.store }).1 = .ok p := by
  have hvalues : ∀ other ∈ sharedConfig ++ madeShared :: interleaved, other.values = [] := by decide
  have hb : Fields.get? "b" (runFrom {} sharedConfig).2.scope = some (.ref 1) := by decide +kernel
  have hbuilder : (runFrom {} sharedConfig).2.store.node 1
      = .record .builder (.own [(Name.config, .ref 2)]) := by decide +kernel
  have hcreates : Creates (runFrom {} sharedConfig).2 madeShared "x" ⟨", ", true⟩ _ :=
    .builder (v := .ref 2) (Or.inl rfl) hb hbuilder (by decide +kernel)
      ⟨2, [(Name.separator, .str ", "), (Name.pad, .bool true)], rfl, by decide +kernel, rfl, rfl⟩
      (by decide +kernel)
  obtain ⟨r, hr, halone⟩ := alone hvalues hcreates
  have hx : Fields.get? "x" (next (runFrom {} sharedConfig).2 madeShared).2.scope
      = some (.ref 15) := by decide +kernel
  obtain rfl : r = 15 := Value.ref.inj (Option.some.inj (hr.symm.trans hx))
  have hspared : Spared 15 (next (runFrom {} sharedConfig).2 madeShared).2 interleaved :=
    ⟨trivial, trivial, by show Fields.get? _ _ ≠ _; decide +kernel, trivial, trivial,
      fun _ => rfl, trivial, trivial, trivial⟩
  have hcalls : (callsTo 15 (next (runFrom {} sharedConfig).2 madeShared).2 interleaved).map
      Prod.fst = laterCalls := by decide +kernel
  obtain ⟨-, hportraits⟩ := halone hspared
  simp only [List.cons_append, List.nil_append, List.map_cons, hcalls] at hportraits
  exact hportraits

end Session

end SelectorForge
