import SelectorForge.Proofs.Selector.Rendering
import SelectorForge.Proofs.Session.Construction

/-!
# Texts that grow

A selector of a store has the text of the fragments that were accepted, one after the other. So each
call that is accepted makes the text longer at its end, by what the fragment, the separator and the
last fragment say, and one that is rejected leaves it as it was:

* `Calls.Stands`      the selector of a run stands for one that holds the accepted fragments;
* `Calls.Stands.next`  one more call;
* `Calls.text_grows`  the text after any calls, and after one more.
-/

namespace SelectorForge

open Effect Session

/-- An object that stands for a compound selector has its text. -/
theorem Store.Models.renderValue {st : Store} {v : Value} {s : Compound} (h : st.Models v s) :
    st.renderValue v = .ok (.str s.render) := by
  obtain ⟨l, r, rfl, hrep, hconfig⟩ := h
  exact hrep.renderValue hconfig

namespace Calls

variable {run : Calls} {v : Value} {config : Config}

/-- The object stands for a selector with a configuration, and the selector holds the accepted
fragments. -/
def Stands (run : Calls) (v : Value) (config : Config) : Prop :=
  ∃ s : Compound, run.store.Models v s ∧ s.Consistent ∧ s.config = config ∧
    s.fragments = run.accepted

/-- The text of the accepted fragments. -/
def text (run : Calls) (config : Config) : Text :=
  Fragment.inOrder config.separator false run.accepted

theorem Stands.renderValue (h : run.Stands v config) :
    run.store.renderValue v = .ok (.str (run.text config)) := by
  obtain ⟨s, hs, -, rfl, hfragments⟩ := h
  rw [hs.renderValue, s.render_eq_inOrder, hfragments]
  rfl

/-- **One more call** is answered with the object, which then holds the fragment, or with an error,
and nothing has changed. -/
theorem Stands.answer (h : run.Stands v config) (f : Fragment) :
    (∃ st, run.answer v f = (.ok v, ⟨st, []⟩) ∧ Stands ⟨run.accepted ++ [f], st⟩ v config) ∨
      ∃ rejection : Rejection,
        run.answer v f = (.error (.rejected rejection), ⟨run.store, [rejection.note]⟩) := by
  obtain ⟨s, hs, hconsistent, rfl, hfragments⟩ := h
  have hrun := hs.run_append [] f.stage f.value
  cases ht : s.append f.stage f.value with
  | error rejection =>
    rw [ht] at hrun
    exact Or.inr ⟨rejection, hrun⟩
  | ok t =>
    rw [ht] at hrun
    obtain ⟨st, hrun, htm⟩ := hrun
    obtain ⟨htc, htf⟩ := Compound.append_consistent hconsistent ht
    obtain ⟨-, rfl⟩ := (Compound.append_eq_ok_iff _ _ _ _).mp ht
    refine Or.inl ⟨st, hrun, _, htm, htc, Compound.config_place s f.stage f.value, ?_⟩
    rw [htf, hfragments]

theorem Stands.next (h : run.Stands v config) (f : Fragment) :
    (run.next v f).Stands v config := by
  unfold Calls.next
  rcases h.answer f with ⟨st, hrun, hnext⟩ | ⟨rejection, hrun⟩
  · rw [hrun]
    exact hnext
  · rw [hrun]
    exact h

theorem Stands.after {st : Store} (h : Stands { store := st } v config) (calls : List Fragment) :
    (after v st calls).Stands v config :=
  after_of_next (P := fun run => run.Stands v config) (fun _ f h => h.next f) h calls

/-- **The text grows at its end.** After any calls to a new selector its text is that of the accepted
fragments in the order of the calls. One more call that is accepted adds the fragment to the end of
the text, with the separator in front if it is an attribute fragment behind another one; a call that
is rejected leaves the text as it was. -/
theorem text_grows {w : World} {given : Value} (h : Construction.Supplies w.store given config) :
    ∃ v st, (newSelector given).run w = (.ok v, { w with store := st }) ∧
      ∀ calls : List Fragment,
        let run := after v st calls
        let text := Fragment.inOrder config.separator false run.accepted
        run.store.renderValue v = .ok (.str text) ∧
        ∀ f : Fragment,
          match run.answer v f with
          | (.ok u, world) => u = v ∧ world.store.renderValue v = .ok (.str (text ++
              f.addition config.separator (Fragment.endsInAttribute run.accepted)))
          | (.error _, world) => world.store.renderValue v = .ok (.str text) := by
  obtain ⟨v, st, hrun, hmodels⟩ := Construction.run_newSelector h
  have hfirst : Stands { store := st } v config :=
    ⟨.empty config, hmodels, Compound.consistent_empty config, rfl, rfl⟩
  refine ⟨v, st, hrun, fun calls => ?_⟩
  have hafter := hfirst.after calls
  refine ⟨hafter.renderValue, fun f => ?_⟩
  rcases hafter.answer f with ⟨st', hanswer, hnext⟩ | ⟨rejection, hanswer⟩
  · rw [hanswer]
    have htext := hnext.renderValue
    rw [Calls.text, Fragment.inOrder_concat] at htext
    exact ⟨rfl, htext⟩
  · rw [hanswer]
    exact hafter.renderValue

/-- A store with a configuration that has a separator of its own. -/
def spacious : World := { store := (Store.alloc {} (configNode ⟨", ", true⟩)).2 }

/-- Two conditions, one of them empty, and between them an id that comes too late. -/
def lateId : List Fragment := [⟨.element, "a"⟩, ⟨.attr, "b"⟩, ⟨.id, "c"⟩, ⟨.attr, []⟩]

theorem text_grows_lateId : ∃ v st,
    Construction.Supplies spacious.store (.ref 0) ⟨", ", true⟩ ∧
    (newSelector (.ref 0)).run spacious = (.ok v, { spacious with store := st }) ∧
    (after v st lateId).store.renderValue v = .ok (.str "a[b], []") := by
  have hconfig : Construction.Supplies spacious.store (.ref 0) ⟨", ", true⟩ :=
    Or.inr (configures_alloc {} ⟨", ", true⟩)
  obtain ⟨v, st, hrun, hgrows⟩ := text_grows (w := spacious) hconfig
  refine ⟨v, st, hconfig, hrun, ?_⟩
  obtain ⟨htext, -⟩ := hgrows lateId
  have hnew : (newSelector (.ref 0)).run spacious
      = (.ok (.ref 4), ⟨Layout.withSelector spacious.store (.ref 0), []⟩) := rfl
  rw [hnew] at hrun
  cases hrun
  exact htext

end Calls

end SelectorForge
