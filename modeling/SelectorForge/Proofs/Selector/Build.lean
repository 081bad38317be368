import SelectorForge.Proofs.Selector.Grammar

/-!
# Words that make a selector

A list of words makes a selector exactly if every word is a fragment and the stages of the
fragments are a word of the grammar. Otherwise the first word that goes wrong is to blame, and what
comes after it does not matter.

* `Fragment.WrittenAs`   a word of a fragment, under any name of its stage;
* `Admissible`           the lists of words that are selectors;
* `Blames`               what is wrong with a word after the fragments before it.
-/

namespace SelectorForge

open CodePoint (equalsSign)

namespace Fragment

/-! ### words of a fragment -/

/-- The first equals sign ends the name of the stage; the value is taken as it is. -/
def WrittenAs (f : Fragment) (word : Text) : Prop :=
  ∃ kind, word = kind ++ equalsSign :: f.value ∧ equalsSign ∉ kind ∧
    Stage.ofName? kind = some f.stage

theorem parse_append {kind : Text} (hk : equalsSign ∉ kind) (value : Text) :
    parse (kind ++ equalsSign :: value) = (stageOf kind).map fun stage => ⟨stage, value⟩ := by
  rw [parse, Text.splitAt?_append _ _ _ hk]

theorem parse_of_notMem {word : Text} (h : equalsSign ∉ word) :
    parse word = .error (.missingEquals word) := by
  rw [parse, (Text.splitAt?_eq_none_iff _ _).mpr h]

theorem parse_eq_ok_iff {word : Text} {f : Fragment} :
    parse word = .ok f ↔ f.WrittenAs word := by
  constructor
  · intro h
    cases hs : Text.splitAt? equalsSign word with
    | none => rw [parse, hs] at h; cases h
    | some parts =>
      obtain ⟨rfl, hk⟩ := Text.eq_of_splitAt?_eq_some hs
      rw [parse_append hk, stageOf] at h
      cases hn : Stage.ofName? parts.1 with
      | none => rw [hn] at h; cases h
      | some stage =>
        rw [hn] at h
        cases h
        exact ⟨parts.1, rfl, hk, hn⟩
  · rintro ⟨kind, rfl, hk, hn⟩
    rw [parse_append hk, stageOf, hn]
    rfl

theorem parse_eq_error {word : Text} {e : Error} (h : parse word = .error e) :
    (equalsSign ∉ word ∧ e = .missingEquals word) ∨
    ∃ kind value, word = kind ++ equalsSign :: value ∧ equalsSign ∉ kind ∧
      Stage.ofName? kind = none ∧ e = .unknownKind kind := by
  cases hs : Text.splitAt? equalsSign word with
  | none =>
    have hw := (Text.splitAt?_eq_none_iff _ _).mp hs
    rw [parse_of_notMem hw] at h
    cases h
    exact Or.inl ⟨hw, rfl⟩
  | some parts =>
    obtain ⟨rfl, hk⟩ := Text.eq_of_splitAt?_eq_some hs
    rw [parse_append hk, stageOf] at h
    cases hn : Stage.ofName? parts.1 with
    | some stage => rw [hn] at h; cases h
    | none =>
      rw [hn] at h
      cases h
      exact Or.inr ⟨parts.1, parts.2, rfl, hk, hn, rfl⟩

theorem WrittenAs.unique {f g : Fragment} {word : Text} (hf : f.WrittenAs word)
    (hg : g.WrittenAs word) : f = g := by
  have h := (parse_eq_ok_iff.mpr hf).symm.trans (parse_eq_ok_iff.mpr hg)
  exact Except.ok.inj h

end Fragment

/-! ### lists of words -/

/-- The words of fragments whose stages are a word of the grammar. -/
def Admissible (words : List Text) : Prop :=
  ∃ fragments, List.Forall₂ Fragment.WrittenAs fragments words ∧
    fragments.map Fragment.stage ∈ Stage.grammar.matches'

/-- What is wrong with a word after the fragments before it, and the wording. -/
inductive Blames (before : List Fragment) (word : Text) : BuildError → Text → Prop
  | missingEquals (h : equalsSign ∉ word) :
    Blames before word (.malformed (.missingEquals word))
      (("Expected kind=value, got " : Text) ++ word.quoted)
  | unknownKind {kind value : Text} (hw : word = kind ++ equalsSign :: value)
    (hk : equalsSign ∉ kind) (hn : Stage.ofName? kind = none) :
    Blames before word (.malformed (.unknownKind kind))
      (("Unknown fragment kind: " : Text) ++ kind.quoted)
  | outOfOrder {f : Fragment} {latest : Stage} (hw : f.WrittenAs word)
    (hp : Passed before f.stage) (hl : before.getLast?.map Fragment.stage = some latest) :
    Blames before word (.rejected (.outOfOrder f.stage latest)) Rejection.orderMessage
  | duplicate {f : Fragment} (hw : f.WrittenAs word) (hp : ¬ Passed before f.stage)
    (ht : Taken before f.stage) :
    Blames before word (.rejected (.duplicate f.stage)) Rejection.duplicateMessage

theorem admissible_nil : Admissible [] := ⟨[], List.Forall₂.nil, Stage.nil_mem_grammar⟩

theorem forall₂_concat_iff {α β : Type} {R : α → β → Prop} {as : List α} {bs : List β} {b : β} :
    List.Forall₂ R as (bs ++ [b]) ↔
      ∃ init a, as = init ++ [a] ∧ List.Forall₂ R init bs ∧ R a b := by
  rw [← List.forall₂_reverse_iff, List.reverse_append, List.reverse_singleton,
    List.singleton_append, List.forall₂_cons_right_iff]
  constructor
  · rintro ⟨a, u, hab, hu, hrev⟩
    refine ⟨u.reverse, a, ?_, ?_, hab⟩
    · rw [← List.reverse_reverse as, hrev, List.reverse_cons]
    · rw [← List.reverse_reverse bs]
      exact List.forall₂_reverse_iff.mpr hu
  · rintro ⟨init, a, rfl, hinit, hab⟩
    exact ⟨a, init.reverse, hab, List.forall₂_reverse_iff.mpr hinit, by simp⟩

theorem concat_mem_grammar_iff_free {before : List Fragment} {f : Fragment} :
    (before ++ [f]).map Fragment.stage ∈ Stage.grammar.matches' ↔
      before.map Fragment.stage ∈ Stage.grammar.matches' ∧ ¬ Passed before f.stage ∧
        ¬ Taken before f.stage := by
  rw [List.map_append, List.map_singleton, Stage.concat_mem_grammar_iff, Passed, Taken]
  simp only [List.mem_map]
  grind

/-- A list of words can be made longer by the word of a fragment whose place is free. -/
theorem admissible_concat_iff {words : List Text} {word : Text} :
    Admissible (words ++ [word]) ↔ ∃ before : List Fragment, ∃ f : Fragment,
      List.Forall₂ Fragment.WrittenAs before words ∧
      before.map Fragment.stage ∈ Stage.grammar.matches' ∧ f.WrittenAs word ∧
      ¬ Passed before f.stage ∧ ¬ Taken before f.stage := by
  constructor
  · rintro ⟨_, hw, hg⟩
    obtain ⟨before, f, rfl, hb, hf⟩ := forall₂_concat_iff.mp hw
    obtain ⟨hg, hp, ht⟩ := concat_mem_grammar_iff_free.mp hg
    exact ⟨before, f, hb, hg, hf, hp, ht⟩
  · rintro ⟨before, f, hb, hg, hf, hp, ht⟩
    exact ⟨before ++ [f], forall₂_concat_iff.mpr ⟨before, f, rfl, hb, hf⟩,
      concat_mem_grammar_iff_free.mpr ⟨hg, hp, ht⟩⟩

theorem forall₂_writtenAs_unique {fs gs : List Fragment} {words : List Text}
    (hf : List.Forall₂ Fragment.WrittenAs fs words)
    (hg : List.Forall₂ Fragment.WrittenAs gs words) : fs = gs :=
  List.left_unique_forall₂' (fun _ _ _ h h' => h.unique h') hf hg

namespace Compound

/-! ### one word -/

theorem appendWord_of_writtenAs {s : Compound} {word : Text} {f : Fragment}
    (hf : f.WrittenAs word) :
    s.appendWord word = (s.append f.stage f.value).mapError .rejected := by
  rw [appendWord, Fragment.parse_eq_ok_iff.mpr hf]
  rfl

theorem appendWord_of_parse_error {s : Compound} {word : Text} {e : Fragment.Error}
    (h : Fragment.parse word = .error e) : s.appendWord word = .error (.malformed e) := by
  rw [appendWord, h]
  rfl

/-- A word is appended exactly if it is the word of a fragment whose place is free. -/
theorem appendWord_eq_ok {s s' : Compound} {word : Text} (hs : s.Consistent)
    (h : s.appendWord word = .ok s') :
    s'.Consistent ∧ s'.config = s.config ∧ ∃ f : Fragment, f.WrittenAs word ∧
      s'.fragments = s.fragments ++ [f] ∧ ¬ Passed s.fragments f.stage ∧
      ¬ Taken s.fragments f.stage := by
  cases hp : Fragment.parse word with
  | error e => rw [appendWord_of_parse_error hp] at h; cases h
  | ok f =>
    have hf := Fragment.parse_eq_ok_iff.mp hp
    rw [appendWord_of_writtenAs hf] at h
    cases ha : s.append f.stage f.value with
    | error r => rw [ha] at h; cases h
    | ok t =>
      rw [ha] at h
      cases h
      obtain ⟨hc, hfr⟩ := append_consistent hs ha
      obtain ⟨hr, rfl⟩ := (append_eq_ok_iff _ _ _ _).mp ha
      exact ⟨hc, config_place _ _ _, f, hf, hfr, (hs.rejection?_eq_none_iff _).mp hr⟩

theorem exists_appendWord_eq_ok {s : Compound} {word : Text} {f : Fragment} (hs : s.Consistent)
    (hf : f.WrittenAs word) (hp : ¬ Passed s.fragments f.stage)
    (ht : ¬ Taken s.fragments f.stage) : ∃ s', s.appendWord word = .ok s' := by
  have ha := (append_eq_ok_iff s _ f.stage f.value).mpr
    ⟨(hs.rejection?_eq_none_iff _).mpr ⟨hp, ht⟩, rfl⟩
  exact ⟨_, by rw [appendWord_of_writtenAs hf, ha]; rfl⟩

theorem appendWord_eq_error {s : Compound} {word : Text} {e : BuildError} (hs : s.Consistent)
    (h : s.appendWord word = .error e) : Blames s.fragments word e e.message := by
  cases hp : Fragment.parse word with
  | error pe =>
    rw [appendWord_of_parse_error hp] at h
    cases h
    rcases Fragment.parse_eq_error hp with ⟨hw, rfl⟩ | ⟨kind, value, hw, hk, hn, rfl⟩
    · exact Blames.missingEquals hw
    · exact Blames.unknownKind hw hk hn
  | ok f =>
    have hf := Fragment.parse_eq_ok_iff.mp hp
    rw [appendWord_of_writtenAs hf] at h
    cases ha : s.append f.stage f.value with
    | ok t => rw [ha] at h; cases h
    | error r =>
      rw [ha] at h
      cases h
      have hr := (append_eq_error_iff _ _ _ _).mp ha
      rcases (hs.rejection?_eq_some_iff _ _).mp hr with ⟨latest, hl, hlt, rfl⟩ | ⟨hp, ht, rfl⟩
      · refine Blames.outOfOrder hf ((hs.passed_iff _).mpr ⟨latest, hl, hlt⟩) ?_
        rw [← hs, hl]
      · exact Blames.duplicate hf hp ht

/-! ### all words -/

theorem build_append (config : Config) (words rest : List Text) :
    build config (words ++ rest) = build config words >>= fun s => s.appendWords rest := by
  rw [build, appendWords, List.foldlM_append]
  rfl

theorem build_concat (config : Config) (words : List Text) (word : Text) :
    build config (words ++ [word]) = build config words >>= fun s => s.appendWord word := by
  rw [build_append]
  congr 1
  funext s
  rw [appendWords, List.foldlM_cons]
  cases s.appendWord word <;> rfl

theorem build_append_of_error {config : Config} {words : List Text} {e : BuildError}
    (h : build config words = .error e) (rest : List Text) :
    build config (words ++ rest) = .error e := by
  rw [build_append, h]
  rfl

/-- The selector of a list of words holds their fragments. -/
theorem build_eq_ok {config : Config} {words : List Text} {s : Compound}
    (h : build config words = .ok s) :
    s.Consistent ∧ s.config = config ∧ List.Forall₂ Fragment.WrittenAs s.fragments words := by
  induction words using List.reverseRecOn generalizing s with
  | nil =>
    rw [build_nil] at h
    cases h
    exact ⟨consistent_empty config, rfl, List.Forall₂.nil⟩
  | append_singleton words word ih =>
    rw [build_concat] at h
    cases hb : build config words with
    | error e => rw [hb] at h; cases h
    | ok t =>
      rw [hb] at h
      obtain ⟨hc, hcfg, hw⟩ := ih hb
      obtain ⟨hc', hcfg', f, hf, hfr, _, _⟩ := appendWord_eq_ok hc h
      refine ⟨hc', hcfg'.trans hcfg, ?_⟩
      rw [hfr]
      exact forall₂_concat_iff.mpr ⟨_, f, rfl, hw, hf⟩

theorem build_isOk_iff (config : Config) (words : List Text) :
    (∃ s, build config words = .ok s) ↔ Admissible words := by
  induction words using List.reverseRecOn with
  | nil => exact ⟨fun _ => admissible_nil, fun _ => ⟨_, build_nil config⟩⟩
  | append_singleton words word ih =>
    rw [admissible_concat_iff, build_concat]
    constructor
    · rintro ⟨s', h⟩
      cases hb : build config words with
      | error e => rw [hb] at h; cases h
      | ok s =>
        rw [hb] at h
        obtain ⟨hc, _, hw⟩ := build_eq_ok hb
        obtain ⟨fs, hfs, hg⟩ := ih.mp ⟨s, hb⟩
        obtain ⟨_, _, f, hf, _, hp, ht⟩ := appendWord_eq_ok hc h
        rw [forall₂_writtenAs_unique hfs hw] at hg
        exact ⟨s.fragments, f, hw, hg, hf, hp, ht⟩
    · rintro ⟨before, f, hb, hg, hf, hp, ht⟩
      obtain ⟨s, hs⟩ := ih.mpr ⟨before, hb, hg⟩
      obtain ⟨hc, _, hw⟩ := build_eq_ok hs
      rw [forall₂_writtenAs_unique hb hw] at hp ht
      rw [hs]
      exact exists_appendWord_eq_ok hc hf hp ht

/-- The first prefix that is not admissible ends with the word that is to blame. -/
theorem exists_least_not_admissible {words : List Text} (h : ¬ Admissible words) :
    ∃ i < words.length, (∀ j ≤ i, Admissible (words.take j)) ∧
      ¬ Admissible (words.take (i + 1)) := by
  classical
  have hex : ∃ n, ¬ Admissible (words.take n) := ⟨words.length, by rwa [List.take_length]⟩
  have hfail := Nat.find_spec hex
  have hleast : ∀ j < Nat.find hex, Admissible (words.take j) := fun j hj =>
    Decidable.not_not.mp (Nat.find_min hex hj)
  have hbound : Nat.find hex ≤ words.length :=
    Nat.find_min' hex (by rwa [List.take_length])
  obtain ⟨i, hi⟩ := Nat.exists_eq_succ_of_ne_zero (n := Nat.find hex) (by
    intro hzero
    rw [hzero] at hfail
    exact hfail admissible_nil)
  rw [hi] at hfail hleast hbound
  exact ⟨i, hbound, fun j hj => hleast j (Nat.lt_succ_of_le hj), hfail⟩

/-- **A list of words makes a selector exactly if it is admissible**; otherwise the word that ends
the first prefix which is not admissible is to blame, whatever follows. -/
theorem build_grammar (config : Config) (words : List Text) :
    ((∃ s, build config words = .ok s) ↔ Admissible words) ∧
    (∀ s, build config words = .ok s → s.config = config ∧
      s.stage = s.fragments.getLast?.map Fragment.stage ∧
      List.Forall₂ Fragment.WrittenAs s.fragments words) ∧
    (¬ Admissible words → ∃ i, ∃ h : i < words.length, ∃ before e,
      (∀ j ≤ i, Admissible (words.take j)) ∧ ¬ Admissible (words.take (i + 1)) ∧
      List.Forall₂ Fragment.WrittenAs before (words.take i) ∧
      Blames before words[i] e e.message ∧
      ∀ rest, build config (words.take (i + 1) ++ rest) = .error e) := by
  refine ⟨build_isOk_iff config words, fun s h => ?_, fun h => ?_⟩
  · obtain ⟨hc, hcfg, hw⟩ := build_eq_ok h
    exact ⟨hcfg, hc, hw⟩
  · obtain ⟨i, hi, hbefore, hfail⟩ := exists_least_not_admissible h
    obtain ⟨s, hs⟩ := (build_isOk_iff config _).mpr (hbefore i (Nat.le_refl i))
    obtain ⟨hc, _, hw⟩ := build_eq_ok hs
    have hsplit : words.take (i + 1) = words.take i ++ [words[i]] := by simp
    cases he : build config (words.take (i + 1)) with
    | ok s' => exact absurd ((build_isOk_iff config _).mp ⟨s', he⟩) hfail
    | error e =>
      refine ⟨i, hi, s.fragments, e, hbefore, hfail, hw, ?_, build_append_of_error he⟩
      rw [hsplit, build_concat, hs] at he
      exact appendWord_eq_error hc he

end Compound

end SelectorForge
