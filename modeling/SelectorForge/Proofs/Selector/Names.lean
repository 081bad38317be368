import SelectorForge.Proofs.Text.Folding
import SelectorForge.Selector.Fragment

/-!
# Names of stages

A stage is looked for twice: among the names as they are written, with a hyphen for each underscore,
and among the letters of the labels, without the underscores. Together the two make up a language of
their own, which is given here without either of them:

* `Stage.letters`        the letters of a label;
* `Stage.Spaced`         letters with underscores anywhere;
* `Stage.Spells`         the names of a stage, in small letters;
* `Stage.ofName?_iff`    what is found, and `Stage.name_language` for all that is said about a name.
-/

namespace SelectorForge.Stage

open CodePoint (underscore hyphen Steadfast)
open Text (Strips)

/-! ### the language -/

/-- A label without its hyphen. -/
def letters : Stage → Text
  | .element => "element"
  | .id => "id"
  | .styleClass => "class"
  | .attr => "attr"
  | .pseudoClass => "pseudoclass"
  | .pseudoElement => "pseudoelement"

/-- Letters with any number of underscores in front of them, between them and behind them. -/
inductive Spaced : Text → Text → Prop
  | nil : Spaced [] []
  | underscore {letters t : Text} (h : Spaced letters t) : Spaced letters (underscore :: t)
  | letter (c : CodePoint) {letters t : Text} (h : Spaced letters t) :
    Spaced (c :: letters) (c :: t)

/-- Underscores may stand among the letters of a label, but not beside its hyphen or in the longer
name that one stage has. -/
inductive Spells : Stage → Text → Prop
  | spaced {s : Stage} {t : Text} (h : Spaced s.letters t) : Spells s t
  | label (s : Stage) : Spells s s.label
  | longer : Spells .attr "attribute"

theorem spaced_iff {letters t : Text} (hl : underscore ∉ letters) :
    Spaced letters t ↔ (t.filter fun c => c != underscore) = letters := by
  constructor
  · intro h
    induction h with
    | nil => rfl
    | underscore _ ih => exact ih hl
    | letter c _ ih =>
      simp only [List.mem_cons, not_or] at hl
      have hc : (c != underscore) = true := bne_iff_ne.mpr (Ne.symm hl.1)
      rw [List.filter_cons, if_pos hc, ih hl.2]
  · rintro rfl
    induction t with
    | nil => exact .nil
    | cons c t ih =>
      by_cases hc : c = underscore
      · rw [hc]
        exact .underscore (ih (by simp))
      · have hne : (c != underscore) = true := bne_iff_ne.mpr hc
        rw [List.filter_cons, if_pos hne]
        exact .letter c (ih (by simp))

/-! ### letters and labels -/

theorem compactLabel_eq (s : Stage) : s.compactLabel = s.letters := by cases s <;> decide

theorem letters_injective {s s' : Stage} (h : s.letters = s'.letters) : s = s' := by
  have hfound : ∀ u : Stage, all.find? (fun v => u.letters == v.letters) = some u := by
    intro u
    cases u <;> decide
  have hs := hfound s
  rw [h, hfound s'] at hs
  exact (Option.some.inj hs).symm

theorem steadfast_label (s : Stage) : ∀ c ∈ s.label, c.Steadfast ∧ c ≠ underscore := by
  apply Text.forall_mem_of_all
  cases s <;> decide

theorem steadfast_letters (s : Stage) :
    ∀ c ∈ s.letters, c.Steadfast ∧ c ≠ underscore ∧ c ≠ hyphen := by
  apply Text.forall_mem_of_all
  cases s <;> decide

theorem steadfast_longer :
    ∀ c ∈ ("attribute" : Text), c.Steadfast ∧ c ≠ underscore ∧ c ≠ hyphen := by
  apply Text.forall_mem_of_all
  decide

/-- A label has at most one hyphen. -/
theorem label_eq (s : Stage) : s.label = s.letters ∨
    ∃ front back : Text, s.label = front ++ hyphen :: back ∧ s.letters = front ++ back ∧
      hyphen ∉ front ∧ hyphen ∉ back := by
  cases s with
  | element | id | styleClass | attr => exact Or.inl rfl
  | pseudoClass => exact Or.inr ⟨"pseudo", "class", by decide, by decide, by decide, by decide⟩
  | pseudoElement => exact Or.inr ⟨"pseudo", "element", by decide, by decide, by decide, by decide⟩

/-! ### hyphens for underscores -/

def withHyphen (c : CodePoint) : CodePoint := if c = underscore then hyphen else c

theorem withHyphen_of_ne {c : CodePoint} (h : c ≠ underscore) : withHyphen c = c := if_neg h

theorem eq_of_withHyphen_eq {c d : CodePoint} (hd : d ≠ hyphen) (h : withHyphen c = d) : c = d := by
  unfold withHyphen at h
  split at h
  · exact absurd h.symm hd
  · exact h

theorem withHyphen_eq_hyphen {c : CodePoint} (h : withHyphen c = hyphen) :
    c = underscore ∨ c = hyphen := by
  unfold withHyphen at h
  split at h
  · exact Or.inl ‹_›
  · exact Or.inr h

theorem map_withHyphen_of_notMem {t : Text} (h : underscore ∉ t) : t.map withHyphen = t := by
  have hsame : ∀ c ∈ t, withHyphen c = c := fun c hc => withHyphen_of_ne fun he => h (he ▸ hc)
  rw [List.map_congr_left hsame, List.map_id']

/-- Where there is no hyphen, there has been no underscore. -/
theorem eq_of_map_withHyphen_eq {t w : Text} (hw : hyphen ∉ w) (h : t.map withHyphen = w) :
    t = w := by
  subst h
  have hsame : ∀ c ∈ t, withHyphen c = c := by
    intro c hc
    have hne : withHyphen c ≠ hyphen := fun he => hw (List.mem_map.mpr ⟨c, hc, he⟩)
    exact (eq_of_withHyphen_eq hne rfl).symm
  rw [List.map_congr_left hsame, List.map_id']

theorem spaced_self {t : Text} : Spaced t t := by
  induction t with
  | nil => exact .nil
  | cons c t ih => exact .letter c ih

theorem spaced_between (front back : Text) :
    Spaced (front ++ back) (front ++ underscore :: back) := by
  induction front with
  | nil => exact .underscore spaced_self
  | cons c front ih => exact .letter c ih

/-- A label with an underscore for its hyphen has an underscore among its letters. -/
theorem spells_of_label {s : Stage} {t : Text} (h : t.map withHyphen = s.label) : Spells s t := by
  rcases s.label_eq with hs | ⟨front, back, hs, hletters, hfront, hback⟩
  · rw [hs] at h
    have hhyphen : hyphen ∉ s.letters := fun hmem => (s.steadfast_letters _ hmem).2.2 rfl
    rw [eq_of_map_withHyphen_eq hhyphen h]
    exact .spaced spaced_self
  · rw [hs] at h
    obtain ⟨a, rest, rfl, ha, hrest⟩ := List.map_eq_append_iff.mp h
    obtain ⟨c, b, rfl, hc, hb⟩ := List.map_eq_cons_iff.mp hrest
    rw [eq_of_map_withHyphen_eq hfront ha, eq_of_map_withHyphen_eq hback hb]
    rcases withHyphen_eq_hyphen hc with rfl | rfl
    · apply Spells.spaced
      rw [hletters]
      exact spaced_between front back
    · rw [← hs]
      exact .label s

/-! ### the two forms of a name -/

/-- A name without the blanks around it, in the small letters of ASCII. -/
def folded (name : Text) : Text := name.trim.foldCase

theorem hyphenated_eq_iff {name w : Text} (hw : ∀ c ∈ w, c.Steadfast) :
    hyphenated name = w ↔ (folded name).map withHyphen = w := by
  have hback : ∀ {v : Text}, v.map withHyphen = w → ∀ c ∈ v, c.Steadfast := by
    rintro v rfl c hc
    by_cases he : c = underscore
    · rw [he]
      decide
    · have hmem := hw _ (List.mem_map.mpr ⟨c, hc, rfl⟩)
      rwa [withHyphen_of_ne he] at hmem
  show name.trim.lower.map withHyphen = w ↔ _
  constructor
  · intro h
    have hfold := (Text.lower_eq_iff (hback h)).mp rfl
    rw [folded, hfold]
    exact h
  · intro h
    have hlower := (Text.lower_eq_iff (hback h)).mpr rfl
    rw [hlower]
    exact h

theorem compact_eq_iff {name w : Text} (hw : ∀ c ∈ w, c.Steadfast) :
    compact name = w ↔ ((folded name).filter fun c => c != underscore) = w := by
  have hsame : ∀ c : CodePoint, (c.foldCase != underscore) = (c != underscore) := by
    intro c
    have hiff := CodePoint.foldCase_eq_iff (c := c) (d := underscore) (by decide) (by decide)
    rw [Bool.eq_iff_iff, bne_iff_ne, bne_iff_ne, Ne, Ne, hiff]
  rw [compact, Text.lower_eq_iff hw, folded, Text.foldCase, Text.foldCase, List.filter_map]
  have hcomp : ((fun c => c != underscore) ∘ CodePoint.foldCase) = fun c => c != underscore :=
    funext hsame
  rw [hcomp]

/-! ### the two passes -/

theorem lookup_names_iff {key : Text} {s : Stage} :
    names.lookup key = some s ↔ key = s.label ∨ key = "attribute" ∧ s = .attr := by
  constructor
  · intro h
    obtain ⟨before, after, hsplit, -⟩ := List.lookup_eq_some_iff.mp h
    have hmem : (key, s) ∈ names := by
      rw [hsplit]
      exact List.mem_append_right _ List.mem_cons_self
    rcases List.mem_append.mp hmem with hmem | hmem
    · obtain ⟨u, -, hu⟩ := List.mem_map.mp hmem
      cases hu
      exact Or.inl rfl
    · cases List.mem_singleton.mp hmem
      exact Or.inr ⟨rfl, rfl⟩
  · rintro (rfl | ⟨rfl, rfl⟩)
    · cases s <;> decide
    · decide

theorem find?_compactLabel_iff {key : Text} {s : Stage} :
    (all.find? fun u => key == compactLabel u) = some s ↔ key = s.letters := by
  constructor
  · intro h
    have hkey : (key == compactLabel s) = true :=
      @List.find?_some _ (fun u => key == compactLabel u) s all h
    rw [eq_of_beq hkey, compactLabel_eq]
  · rintro rfl
    cases s <;> decide

section

variable {name : Text} {s s' : Stage}

theorem lookup_hyphenated_iff : names.lookup (hyphenated name) = some s ↔
    (folded name).map withHyphen = s.label ∨
      (folded name).map withHyphen = "attribute" ∧ s = .attr := by
  have hlabel : ∀ c ∈ s.label, c.Steadfast := fun c hc => (s.steadfast_label c hc).1
  have hlonger : ∀ c ∈ ("attribute" : Text), c.Steadfast := fun c hc => (steadfast_longer c hc).1
  rw [lookup_names_iff, hyphenated_eq_iff hlabel, hyphenated_eq_iff hlonger]

theorem find?_compact_iff : (all.find? fun u => compact name == compactLabel u) = some s ↔
    Spaced s.letters (folded name) := by
  have hletters : ∀ c ∈ s.letters, c.Steadfast := fun c hc => (s.steadfast_letters c hc).1
  have hunderscore : underscore ∉ s.letters := fun hmem => (s.steadfast_letters _ hmem).2.1 rfl
  rw [find?_compactLabel_iff, compact_eq_iff hletters, spaced_iff hunderscore]

/-- What is neither a hyphen nor an underscore is the same in both forms. -/
theorem filter_map_withHyphen (t : Text) :
    ((t.map withHyphen).filter fun c => c != hyphen)
      = (t.filter fun c => c != underscore).filter fun c => c != hyphen := by
  induction t with
  | nil => rfl
  | cons c t ih =>
    by_cases hc : c = underscore
    · rw [hc]
      exact ih
    · have hne : (c != underscore) = true := bne_iff_ne.mpr hc
      rw [List.map_cons, withHyphen_of_ne hc, List.filter_cons, ih, List.filter_cons, if_pos hne,
        List.filter_cons]

/-- **The two passes never disagree.** -/
theorem passes_agree (h : names.lookup (hyphenated name) = some s)
    (h' : (all.find? fun u => compact name == compactLabel u) = some s') : s = s' := by
  have hfilter : ∀ {w : Text}, hyphen ∉ w → (w.filter fun c => c != hyphen) = w := by
    intro w hw
    exact List.filter_eq_self.mpr fun c hc => bne_iff_ne.mpr fun he => hw (he ▸ hc)
  have hhyphen : ∀ u : Stage, hyphen ∉ u.letters := fun u hmem =>
    (u.steadfast_letters _ hmem).2.2 rfl
  have hunderscore : underscore ∉ s'.letters := fun hmem => (s'.steadfast_letters _ hmem).2.1 rfl
  -- the letters of the folded name, read off either form
  have hletters : (((folded name).map withHyphen).filter fun c => c != hyphen) = s'.letters := by
    rw [filter_map_withHyphen, (spaced_iff hunderscore).mp (find?_compact_iff.mp h'),
      hfilter (hhyphen s')]
  rcases lookup_hyphenated_iff.mp h with hlabel | ⟨hlonger, -⟩
  · rw [hlabel] at hletters
    apply letters_injective
    rw [← hletters, ← compactLabel_eq]
    rfl
  · rw [hlonger] at hletters
    cases s' <;> exact absurd hletters (by decide)

/-- **What is found is what a name spells.** -/
theorem ofName?_iff : ofName? name = some s ↔ Spells s (folded name) := by
  have hfirst : ∀ u : Stage, names.lookup (hyphenated name) = some u → ofName? name = some u := by
    intro u h
    rw [ofName?, h]
  constructor
  · intro h
    cases hlookup : names.lookup (hyphenated name) with
    | some u =>
      rw [hfirst u hlookup] at h
      cases h
      rcases lookup_hyphenated_iff.mp hlookup with hlabel | ⟨hlonger, rfl⟩
      · exact spells_of_label hlabel
      · rw [eq_of_map_withHyphen_eq (by decide) hlonger]
        exact .longer
    | none =>
      rw [ofName?, hlookup] at h
      exact .spaced (find?_compact_iff.mp h)
  · intro h
    have hlabel : ∀ w : Text, underscore ∉ w → folded name = w →
        (folded name).map withHyphen = w := by
      rintro w hw rfl
      exact map_withHyphen_of_notMem hw
    generalize ht : folded name = t at h
    cases h with
    | spaced h =>
      rw [← ht] at h
      have hsecond := find?_compact_iff.mpr h
      cases hlookup : names.lookup (hyphenated name) with
      | some u => rw [hfirst u hlookup, passes_agree hlookup hsecond]
      | none => rw [ofName?, hlookup, hsecond]
    | label =>
      have hunderscore : underscore ∉ s.label := fun hmem => (s.steadfast_label _ hmem).2 rfl
      exact hfirst s (lookup_hyphenated_iff.mpr (Or.inl (hlabel _ hunderscore ht)))
    | longer =>
      exact hfirst .attr (lookup_hyphenated_iff.mpr (Or.inr ⟨hlabel _ (by decide) ht, rfl⟩))

end

/-! ### what is in a name -/

theorem steadfast_of_spaced {letters t : Text} (h : Spaced letters t)
    (hl : ∀ c ∈ letters, c.Steadfast) : ∀ c ∈ t, c.Steadfast := by
  induction h with
  | nil => exact hl
  | underscore _ ih =>
    intro c hc
    rcases List.mem_cons.mp hc with rfl | hc
    · decide
    · exact ih hl c hc
  | letter d _ ih =>
    obtain ⟨hd, hl⟩ := List.forall_mem_cons.mp hl
    exact List.forall_mem_cons.mpr ⟨hd, ih hl⟩

theorem Spells.steadfast {s : Stage} {t : Text} (h : Spells s t) : ∀ c ∈ t, c.Steadfast := by
  cases h with
  | spaced h => exact steadfast_of_spaced h fun c hc => (s.steadfast_letters c hc).1
  | label => exact fun c hc => (s.steadfast_label c hc).1
  | longer => exact fun c hc => (steadfast_longer c hc).1

/-- A name of a stage is written in ASCII. -/
theorem lt_of_spells {s : Stage} {core : Text} (h : Spells s core.foldCase) :
    ∀ c ∈ core, c.val < 0x80 := fun c hc =>
  CodePoint.lt_of_steadfast_foldCase (h.steadfast _ (List.mem_map.mpr ⟨c, hc, rfl⟩))

/-- **The names of the stages.** Without the blanks around it, and but for the case of its letters, a
name is a name of a stage exactly if it spells the stage; then it spells no other one and is written
in ASCII, and where both passes find a stage they find the same. Every other name is reported as it
was given. -/
theorem name_language (name : Text) : ∃ core : Text, (∀ t, Strips name t ↔ t = core) ∧
    (∀ s, Fragment.stageOf name = .ok s ↔ Spells s core.foldCase) ∧
    (∀ s s', Spells s core.foldCase → Spells s' core.foldCase → s = s') ∧
    (∀ s s', names.lookup (hyphenated name) = some s →
      (all.find? fun u => compact name == compactLabel u) = some s' → s = s') ∧
    (∀ s, Spells s core.foldCase → ∀ c ∈ core, c.val < 0x80) ∧
    ((∀ s, ¬ Spells s core.foldCase) → ∃ e, Fragment.stageOf name = .error e ∧
      e.message = ("Unknown fragment kind: " : Text) ++ name.quoted) := by
  have hok : ∀ s, Fragment.stageOf name = .ok s ↔ Spells s name.trim.foldCase := by
    intro s
    have hiff := @ofName?_iff name s
    rw [folded] at hiff
    rw [← hiff, Fragment.stageOf]
    cases ofName? name <;> simp
  refine ⟨name.trim, fun t => Text.strips_iff, hok, fun s s' h h' => ?_,
    fun _ _ h h' => passes_agree h h', fun _ h => lt_of_spells h, fun hnone => ?_⟩
  · have hs := (hok s).mpr h
    rw [(hok s').mpr h'] at hs
    cases hs
    rfl
  · cases he : Fragment.stageOf name with
    | ok s => exact absurd ((hok s).mp he) (hnone s)
    | error e =>
      refine ⟨e, rfl, ?_⟩
      unfold Fragment.stageOf at he
      cases hn : ofName? name with
      | some s =>
        rw [hn] at he
        cases he
      | none =>
        rw [hn] at he
        cases he
        rfl

/-- Between the letters underscores may stand anywhere, but not beside a hyphen. -/
example : (["p_s_e_u_d_o_class", "pseudo_-class", "_attribute"] : List Text).map ofName?
    = [some .pseudoClass, none, none] := by decide

end SelectorForge.Stage
