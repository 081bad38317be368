import SelectorForge.Proofs.Selector.Build
import SelectorForge.Proofs.Selector.Unambiguous
import SelectorForge.Proofs.Session.Alone
import SelectorForge.Selector.Builder

/-!
# Ways to make a selector

Fragments become a selector as words that are read, by a builder that makes the selector with the
first of them, or by a new selector to which they are appended. It is the same selector, or it is
the same fragment that is rejected, for the same reason and with the same note:

* `Compound.build_words`      a selector is made again from the words of its fragments;
* `Store.Models`              an object with its configuration stands for a compound selector;
* `Effect.chained`, `direct`  fragments in a store, with a builder and without one;
* `Store.Models.run_append`   one call to an object, and `run_appendAll` for all of them;
* `Construction.ways_agree`   the three ways, and the way back.
-/

namespace SelectorForge

open Effect Session

/-! ### words -/

theorem Fragment.writtenAs_word (f : Fragment) : f.WrittenAs f.word := by
  refine ⟨f.stage.label, rfl, ?_, ?_⟩
  · cases f.stage <;> decide
  · cases f.stage <;> decide

namespace Compound

variable {s t : Compound} {fs : List Fragment}

/-- Under whatever names of their stages the fragments are written. -/
theorem appendWords_eq {words : List Text} (hw : List.Forall₂ Fragment.WrittenAs fs words)
    (s : Compound) :
    s.appendWords words = (s.appendAll fs).mapError .rejected := by
  induction hw generalizing s with
  | nil => rfl
  | @cons f word fs words hf _ ih =>
    rw [appendWords, List.foldlM_cons, appendWord_of_writtenAs hf, appendAll_cons]
    cases s.append f.stage f.value with
    | error rejection => rfl
    | ok t => exact ih t

/-- The words of the fragments of a selector, under the labels of their stages. -/
def words (s : Compound) : List Text := s.fragments.map Fragment.word

/-- A selector that is consistent and made again from its words. -/
def Rebuilt (s : Compound) : Prop := s.Consistent ∧ build s.config s.words = .ok s

theorem Rebuilt.append (h : s.Rebuilt) {target : Stage} {value : Text}
    (ht : s.append target value = .ok t) : t.Rebuilt := by
  obtain ⟨hs, hbuild⟩ := h
  obtain ⟨hconsistent, hfragments⟩ := append_consistent hs ht
  obtain ⟨-, rfl⟩ := (append_eq_ok_iff _ _ _ _).mp ht
  refine ⟨hconsistent, ?_⟩
  have hword := Fragment.writtenAs_word ⟨target, value⟩
  rw [words, hfragments, List.map_append, List.map_singleton, ← words, config_place, build_concat,
    hbuild]
  show s.appendWord _ = _
  rw [appendWord_of_writtenAs hword, ht]
  rfl

theorem Rebuilt.attempt (h : s.Rebuilt) (target : Stage) (value : Text) :
    (s.attempt target value).Rebuilt := by
  unfold Compound.attempt
  cases ht : s.append target value with
  | error rejection => exact h
  | ok t => exact h.append ht

theorem Rebuilt.attemptAll (h : s.Rebuilt) (fs : List Fragment) : (s.attemptAll fs).Rebuilt := by
  induction fs generalizing s with
  | nil => exact h
  | cons f fs ih => exact ih (h.attempt f.stage f.value)

theorem config_attemptAll (s : Compound) (fs : List Fragment) :
    (s.attemptAll fs).config = s.config := by
  induction fs generalizing s with
  | nil => rfl
  | cons f fs ih =>
    refine (ih (s.attempt f.stage f.value)).trans ?_
    unfold attempt
    cases ht : s.append f.stage f.value with
    | error rejection => rfl
    | ok t =>
      obtain ⟨-, rfl⟩ := (append_eq_ok_iff _ _ _ _).mp ht
      exact config_place _ _ _

/-- **A selector is made again from its words**, whatever was rejected on the way to it. -/
theorem build_words (config : Config) (calls : List Fragment) :
    build config ((empty config).attemptAll calls).words
      = .ok ((empty config).attemptAll calls) := by
  have hempty : (empty config).Rebuilt := ⟨consistent_empty config, rfl⟩
  have hbuild := (hempty.attemptAll calls).2
  rwa [config_attemptAll] at hbuild

/-! ### the first fragment that is rejected -/

/-- Either all fragments are appended, or one of them is rejected after those before it, whatever
follows. -/
theorem appendAll_split (s : Compound) (fs : List Fragment) :
    (∃ t, s.appendAll fs = .ok t) ∨
    ∃ before f after t rejection, fs = before ++ f :: after ∧ s.appendAll before = .ok t ∧
      t.append f.stage f.value = .error rejection := by
  induction fs generalizing s with
  | nil => exact Or.inl ⟨s, rfl⟩
  | cons f fs ih =>
    rw [appendAll_cons]
    cases ha : s.append f.stage f.value with
    | error rejection => exact Or.inr ⟨[], f, fs, s, rejection, rfl, rfl, ha⟩
    | ok s' =>
      rcases ih s' with ⟨t, ht⟩ | ⟨before, g, after, t, rejection, rfl, ht, hg⟩
      · exact Or.inl ⟨t, ht⟩
      · refine Or.inr ⟨f :: before, g, after, t, rejection, rfl, ?_, hg⟩
        rw [appendAll_cons, ha]
        exact ht

theorem appendAll_append (s : Compound) (fs gs : List Fragment) :
    s.appendAll (fs ++ gs) = s.appendAll fs >>= fun t => t.appendAll gs := by
  rw [appendAll, List.foldlM_append]
  rfl

theorem appendAll_of_rejected {before : List Fragment} {f : Fragment} {rejection : Rejection}
    (ht : s.appendAll before = .ok t) (hf : t.append f.stage f.value = .error rejection)
    (rest : List Fragment) : s.appendAll (before ++ f :: rest) = .error rejection := by
  rw [appendAll_append, ht]
  show t.appendAll (f :: rest) = _
  rw [appendAll_cons, hf]
  rfl

/-- A selector without fragments rejects none. -/
theorem ne_nil_of_rejected {config : Config} {before : List Fragment} {f : Fragment}
    {rejection : Rejection} (ht : (empty config).appendAll before = .ok t)
    (hf : t.append f.stage f.value = .error rejection) : before ≠ [] := by
  rintro rfl
  cases ht
  rw [(Builder.mk config).append_empty] at hf
  cases hf

theorem stage_rejection {target : Stage} {value : Text} {rejection : Rejection}
    (h : s.append target value = .error rejection) : rejection.stage = target := by
  have hr := (append_eq_error_iff _ _ _ _).mp h
  unfold rejection? duplicate? at hr
  repeat' split at hr
  all_goals cases hr
  all_goals rfl

end Compound

/-! ### fragments appended in a store -/

namespace Effect

/-- Appends fragments one after the other, each to what the one before has answered. -/
def appendAll (v : Value) (fs : List Fragment) : Effect Value :=
  fs.foldlM (fun v f => append v f.stage f.value) v

/-- A builder makes a selector with the first fragment, and the others are appended to it. -/
def chained (config : Value) (fs : List Fragment) : Effect Value := do
  appendAll (← newBuilder config) fs

/-- All fragments are appended to a new selector. -/
def direct (config : Value) (fs : List Fragment) : Effect Value := do
  appendAll (← newSelector config) fs

theorem appendAll_cons (v : Value) (f : Fragment) (fs : List Fragment) :
    appendAll v (f :: fs) = append v f.stage f.value >>= fun u => appendAll u fs := by
  rw [appendAll, List.foldlM_cons]
  rfl

end Effect

/-- Calls that are made whatever comes of the single ones. Only the object and its lists change. -/
theorem Layout.Represents.after {l : Layout} {st : Store} {r : Ref} {s : Compound}
    (h : l.Represents st r s) (calls : List Fragment) :
    l.Represents (Calls.after (.ref r) st calls).store r (s.attemptAll calls) ∧
      l.Confined r st (Calls.after (.ref r) st calls).store := by
  have hall : ∀ (run : Calls) (s : Compound), l.Represents run.store r s →
      l.Represents (calls.foldl (Calls.next (.ref r)) run).store r (s.attemptAll calls) ∧
        l.Confined r run.store (calls.foldl (Calls.next (.ref r)) run).store := by
    induction calls with
    | nil => exact fun run _ h => ⟨h, .refl l r run.store⟩
    | cons f calls ih =>
      intro run s h
      have hrun := h.run_append [] f.stage f.value
      have hnext : l.Represents (run.next (.ref r) f).store r (s.attempt f.stage f.value) ∧
          l.Confined r run.store (run.next (.ref r) f).store := by
        unfold Calls.next Calls.answer Compound.attempt
        cases ht : s.append f.stage f.value with
        | error rejection =>
          rw [ht] at hrun
          rw [hrun]
          exact ⟨h, .refl l r run.store⟩
        | ok t =>
          rw [ht] at hrun
          obtain ⟨st', hrun, ht'⟩ := hrun
          rw [hrun]
          exact ⟨ht', h.confined_append ((Compound.append_eq_ok_iff _ _ _ _).mp ht).1 hrun⟩
      obtain ⟨hafter, hc⟩ := ih _ _ hnext.1
      exact ⟨hafter, hnext.2.trans hc⟩
  exact hall _ s h

/-- An object with its configuration stands for a compound selector. -/
def Store.Models (st : Store) (v : Value) (s : Compound) : Prop :=
  ∃ l r, v = .ref r ∧ Layout.Represents l st r s ∧ st.Configures l.config s.config

namespace Effect

/-- An object that stands for a selector is answered. It tells the same about itself, and nothing is
noted. -/
def Yields (e : Effect Value) (w : World) (s : Compound) : Prop :=
  ∃ v st, e.run w = (.ok v, ⟨st, w.notes⟩) ∧ st.Models v s ∧
    ((portrait v).run { store := st }).1 = .ok s.portrait

/-- A fragment is rejected, with the same line in the log as where words are read. -/
def Rejects (e : Effect Value) (w : World) (rejection : Rejection) : Prop :=
  ∃ st, e.run w
    = (.error (.rejected rejection), ⟨st, w.notes ++ (BuildError.rejected rejection).notes⟩)

/-- What comes of an effect is what comes of fragments outside any store. -/
def Follows (e : Effect Value) (w : World) : Except Rejection Compound → Prop
  | .ok s => e.Yields w s
  | .error rejection => e.Rejects w rejection

end Effect

namespace Store

variable {st : Store} {v : Value} {s : Compound} {w : World}

/-- **One call** to an object that stands for a selector. -/
theorem Models.run_append (h : st.Models v s) (notes : List Text) (target : Stage)
    (value : Text) :
    match s.append target value with
    | .error rejection => (append v target value).run ⟨st, notes⟩
        = (.error (.rejected rejection), ⟨st, notes ++ [rejection.note]⟩)
    | .ok t => ∃ st', (append v target value).run ⟨st, notes⟩ = (.ok v, ⟨st', notes⟩) ∧
        st'.Models v t := by
  obtain ⟨l, r, rfl, h, hconfig⟩ := h
  have hrun := h.run_append notes target value
  cases ht : s.append target value with
  | error rejection =>
    rw [ht] at hrun
    exact hrun
  | ok t =>
    rw [ht] at hrun
    obtain ⟨st', hrun, ht'⟩ := hrun
    obtain ⟨hr, rfl⟩ := (Compound.append_eq_ok_iff _ _ _ _).mp ht
    refine ⟨st', hrun, l, r, rfl, ht', ?_⟩
    rw [Compound.config_place]
    exact h.configures (h.confined_append hr hrun) hconfig

/-- All calls, up to the first that is rejected. -/
theorem Models.run_appendAll (h : st.Models v s) (notes : List Text) (fs : List Fragment) :
    match s.appendAll fs with
    | .error rejection => ∃ st', (appendAll v fs).run ⟨st, notes⟩
        = (.error (.rejected rejection), ⟨st', notes ++ [rejection.note]⟩)
    | .ok t => ∃ st', (appendAll v fs).run ⟨st, notes⟩ = (.ok v, ⟨st', notes⟩) ∧
        st'.Models v t := by
  induction fs generalizing st s with
  | nil => exact ⟨st, rfl, h⟩
  | cons f fs ih =>
    have hrun := h.run_append notes f.stage f.value
    rw [Effect.appendAll_cons, run_bind, Compound.appendAll_cons]
    cases ht : s.append f.stage f.value with
    | error rejection =>
      rw [ht] at hrun
      exact ⟨st, by rw [hrun]⟩
    | ok t =>
      rw [ht] at hrun
      obtain ⟨st', hrun, ht'⟩ := hrun
      rw [hrun]
      exact ih ht'

theorem Models.after (h : st.Models v s) (calls : List Fragment) :
    (Calls.after v st calls).store.Models v (s.attemptAll calls) := by
  obtain ⟨l, r, rfl, h, hconfig⟩ := h
  obtain ⟨hafter, hc⟩ := h.after calls
  refine ⟨l, r, rfl, hafter, ?_⟩
  rw [Compound.config_attemptAll]
  exact h.configures hc hconfig

theorem Models.slots_eq (h : st.Models v s) :
    st.slots v = .ok (s.fragments.map fun f => (f.stage, Value.str f.value)) := by
  obtain ⟨l, r, rfl, h, -⟩ := h
  exact h.slots_eq

/-- What comes of fragments that are appended to the object. -/
theorem Models.follows (h : st.Models v s) {e : Effect Value} {fs : List Fragment}
    (he : e.run w = (appendAll v fs).run ⟨st, w.notes⟩) : e.Follows w (s.appendAll fs) := by
  have hrun := h.run_appendAll w.notes fs
  cases ht : s.appendAll fs with
  | error rejection =>
    rw [ht] at hrun
    obtain ⟨st', hrun⟩ := hrun
    exact ⟨st', he.trans hrun⟩
  | ok t =>
    rw [ht] at hrun
    obtain ⟨st', hrun, hmodels⟩ := hrun
    obtain ⟨l, r, rfl, ht', hconfig⟩ := id hmodels
    obtain ⟨st'', -, hportrait⟩ := ht'.run_portrait hconfig []
    exact ⟨.ref r, st', he.trans hrun, hmodels, by rw [hportrait]⟩

end Store

/-! ### the three ways -/

namespace Construction

/-- A configuration that is given, or nothing in its place. -/
def Supplies (st : Store) (v : Value) (config : Config) : Prop :=
  (v = .null ∧ config = {}) ∨ st.Configures v config

/-- What comes of words, of a builder and of a new selector is the same. -/
structure Agree (w : World) (v : Value) (config : Config) (fs : List Fragment)
    (words : List Text) (outcome : Except Rejection Compound) : Prop where
  words : Compound.build config words = outcome.mapError .rejected
  builder : (chained v fs).Follows w outcome
  selector : (direct v fs).Follows w outcome

variable {w : World} {v : Value} {config : Config}

/-- Nothing makes way for the default configuration. -/
theorem exists_configOr (h : Supplies w.store v config) :
    ∃ c st, (configOr v).run w = (.ok c, { w with store := st }) ∧ st.Configures c config := by
  rcases h with ⟨rfl, rfl⟩ | h
  · exact ⟨_, _, rfl, configures_alloc w.store {}⟩
  · exact ⟨v, w.store, run_configOr_of_configures h, h⟩

theorem models_withSelector {st : Store} {c : Value} (hc : st.Configures c config) :
    (Layout.withSelector st c).Models (.ref (st.size + 3)) (.empty config) :=
  ⟨Layout.new st c, _, rfl, Layout.represents_withSelector st c config,
    hc.extend (Layout.extends_withSelector st c)⟩

theorem run_newSelector (h : Supplies w.store v config) :
    ∃ u st, (newSelector v).run w = (.ok u, { w with store := st }) ∧
      st.Models u (.empty config) := by
  obtain ⟨c, st, hrun, hc⟩ := exists_configOr h
  exact ⟨.ref (st.size + 3), Layout.withSelector st c, Layout.run_newSelector hrun,
    models_withSelector hc⟩

theorem direct_follows (h : Supplies w.store v config) (fs : List Fragment) :
    (direct v fs).Follows w ((Compound.empty config).appendAll fs) := by
  obtain ⟨u, st, hrun, hu⟩ := run_newSelector h
  refine hu.follows ?_
  unfold direct
  rw [run_bind, hrun]

/-- The builder passes the first fragment on to a new selector. -/
theorem chained_follows (h : Supplies w.store v config) {fs : List Fragment} (hfs : fs ≠ []) :
    (chained v fs).Follows w ((Compound.empty config).appendAll fs) := by
  obtain ⟨c, st, hrun, hc⟩ := exists_configOr h
  obtain ⟨f, rest, rfl⟩ := List.exists_cons_of_ne_nil hfs
  let builder : Node := .record .builder (.own [(Name.config, c)])
  have hconfig : (st.alloc builder).2.Configures c config := hc.extend (Store.extends_alloc st _)
  have hnew : (newBuilder v).run w = (.ok (.ref st.size), ⟨(st.alloc builder).2, w.notes⟩) := by
    unfold newBuilder
    rw [run_bind, hrun]
    rfl
  have hcalls : ∀ name ∈ [Name.ofStage f.stage, Name.fresh],
      (st.alloc builder).2.checkCallable [(Name.config, c)] name = .ok () := by
    refine List.forall_mem_cons.mpr ⟨?_, List.forall_mem_singleton.mpr rfl⟩
    cases f.stage <;> rfl
  let w' : World := ⟨(st.alloc builder).2, w.notes⟩
  have hfirst : (append (.ref st.size) f.stage f.value).run w' = _ :=
    run_append_builder (st.node_alloc_self builder) hcalls rfl hconfig
  refine (models_withSelector hconfig).follows ?_
  unfold chained
  rw [run_bind, hnew]
  simp only
  rw [Effect.appendAll_cons, Effect.appendAll_cons, run_bind, run_bind, hfirst]

theorem agree (h : Supplies w.store v config) {fs : List Fragment} (hfs : fs ≠ [])
    {words : List Text} {outcome : Except Rejection Compound}
    (hfragments : (Compound.empty config).appendAll fs = outcome)
    (hwords : Compound.build config words = outcome.mapError .rejected) :
    Agree w v config fs words outcome where
  words := hwords
  builder := hfragments ▸ chained_follows h hfs
  selector := hfragments ▸ direct_follows h fs

/-- **The three ways agree**: all fragments are taken, or the same one is rejected, whatever comes
after it. The first one is always taken. And what has become of a new selector after any calls is
made again from the words of the fragments in its places. -/
theorem ways_agree (h : Supplies w.store v config) {fs : List Fragment} {words : List Text}
    (hfs : fs ≠ []) (hwords : List.Forall₂ Fragment.WrittenAs fs words) :
    (∀ f : Fragment, (chained v [f]).Yields w ((Builder.mk config).start f.stage f.value)) ∧
    ((∃ s, Agree w v config fs words (.ok s)) ∨
      ∃ before f after s rejection, fs = before ++ f :: after ∧ before ≠ [] ∧
        rejection.stage = f.stage ∧
        Agree w v config before (words.take before.length) (.ok s) ∧
        ∀ rest restWords, Agree w v config (before ++ f :: rest)
          (words.take (before.length + 1) ++ restWords) (.error rejection)) ∧
    ∃ u st, (newSelector v).run w = (.ok u, { w with store := st }) ∧ ∀ calls : List Fragment,
      let after := (Calls.after u st calls).store
      ∃ (s : Compound) (gs : List Fragment), after.Models u s ∧
        after.slots u = .ok (gs.map fun g => (g.stage, Value.str g.value)) ∧
        Compound.build config (gs.map Fragment.word) = .ok s := by
  refine ⟨fun f => ?_, ?_, ?_⟩
  · have hfirst : (Compound.empty config).appendAll [f]
        = .ok ((Builder.mk config).start f.stage f.value) := by
      rw [Compound.appendAll_cons, (Builder.mk config).append_empty]
      rfl
    have hfollows := chained_follows h (List.cons_ne_nil f [])
    rwa [hfirst] at hfollows
  · rcases (Compound.empty config).appendAll_split fs with
      ⟨s, hs⟩ | ⟨before, f, after, s, rejection, rfl, hs, hf⟩
    · exact Or.inl ⟨s, agree h hfs hs (by
        rw [Compound.build, Compound.appendWords_eq hwords, hs])⟩
    · have hbefore := List.forall₂_take before.length hwords
      have hupto := List.forall₂_take (before.length + 1) hwords
      rw [List.take_left] at hbefore
      rw [List.take_length_add_append, List.take_one, List.head?_cons, Option.toList_some] at hupto
      have hfail : ∀ rest, (Compound.empty config).appendAll (before ++ f :: rest)
          = .error rejection := Compound.appendAll_of_rejected hs hf
      have hne := Compound.ne_nil_of_rejected hs hf
      refine Or.inr ⟨before, f, after, s, rejection, rfl, hne, Compound.stage_rejection hf, ?_,
        fun rest restWords => ?_⟩
      · exact agree h hne hs (by
          rw [Compound.build, Compound.appendWords_eq hbefore, hs])
      · refine agree h (by simp) (hfail rest) (Compound.build_append_of_error ?_ restWords)
        rw [Compound.build, Compound.appendWords_eq hupto, hfail []]
        rfl
  · obtain ⟨u, st, hrun, hu⟩ := run_newSelector h
    refine ⟨u, st, hrun, fun calls => ?_⟩
    have hafter := hu.after calls
    exact ⟨_, _, hafter, hafter.slots_eq, Compound.build_words config calls⟩

/-- An id with an equals sign, and an element after it, under other names than the labels. -/
def lateElement : List Fragment := [⟨.id, "a=b"⟩, ⟨.element, " "⟩]

def lateElementWords : List Text := [" ID=a=b", "E_lement= "]

theorem ways_agree_lateElement : ∃ rejection : Rejection, rejection.stage = .element ∧
    Agree {} .null {} lateElement lateElementWords (.error rejection) := by
  have hwords : List.Forall₂ Fragment.WrittenAs lateElement lateElementWords :=
    .cons ⟨" ID", by decide, by decide, by decide⟩
      (.cons ⟨"E_lement", by decide, by decide, by decide⟩ .nil)
  obtain ⟨-, hagree, -⟩ :=
    ways_agree (w := {}) (Or.inl ⟨rfl, rfl⟩) (List.cons_ne_nil _ _) hwords
  rcases hagree with ⟨s, hs⟩ | ⟨before, f, after, s, rejection, hsplit, hne, hstage, -, hfail⟩
  · have hbuild : Compound.build {} lateElementWords = .ok s := hs.words
    cases hbuild
  · obtain ⟨g, before, rfl⟩ := List.exists_cons_of_ne_nil hne
    have hlength : 2 = (g :: before ++ f :: after).length := congrArg List.length hsplit
    rw [List.length_append, List.length_cons, List.length_cons] at hlength
    obtain rfl : before = [] := List.length_eq_zero_iff.mp (by omega)
    cases hsplit
    exact ⟨rejection, hstage, hfail [] []⟩

end Construction

end SelectorForge
