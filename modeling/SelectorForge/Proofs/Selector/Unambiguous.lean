import SelectorForge.Proofs.Selector.History

/-!
# Texts that tell selectors apart

The text of a selector puts a mark in front of each fragment and nothing behind it, and the marks of
a pseudo-class and of a pseudo-element begin alike. Where the values keep clear of the marks, a text
can still be taken apart in one way only, whatever stands between the attribute fragments:

* `Text.cut`                     two texts that are equal are cut at their first marks;
* `Text.setOff_cut`              names with one mark in front of each;
* `Text.conditions_cut`          attribute fragments: behind the last one there is no bracket;
* `Fragment.Clean`               values that keep clear of the marks;
* `Compound.render_eq_iff`       equal texts come from equal fragments.
-/

namespace SelectorForge

namespace Text

/-! ### marks -/

/-- What a fragment behind another one can begin with. -/
def marks : List CodePoint := ['#', '.', '[', ':']

def Unmarked (t : Text) : Prop := ∀ c ∈ t, c ∉ marks

theorem all_eq_true_iff (t : Text) : (t.all fun c => !marks.contains c) = true ↔ Unmarked t := by
  simp [Unmarked]

-- not the instance for all of the finitely many code points
instance (t : Text) : Decidable (Unmarked t) := decidable_of_iff _ (all_eq_true_iff t)

/-- Nothing, or a text that begins with one of these. -/
def Opens (ms : List CodePoint) (t : Text) : Prop := ∀ c ∈ t.head?, c ∈ ms

theorem opens_nil (ms : List CodePoint) : Opens ms [] := fun _ hc => absurd hc (Option.not_mem_none _)

theorem opens_cons {ms : List CodePoint} {c : CodePoint} (h : c ∈ ms) (t : Text) :
    Opens ms (c :: t) := by
  intro d hd
  rw [List.head?_cons, Option.mem_some_iff] at hd
  rwa [← hd]

theorem Opens.append {ms : List CodePoint} {a b : Text} (ha : Opens ms a) (hb : Opens ms b) :
    Opens ms (a ++ b) := by
  cases a with
  | nil => exact hb
  | cons c a => exact opens_cons (ha c rfl) _

theorem Opens.mono {ms ms' : List CodePoint} {t : Text} (h : Opens ms t) (hs : ms ⊆ ms') :
    Opens ms' t := fun c hc => hs (h c hc)

theorem ne_cons_of_opens {c : CodePoint} {a x : Text} (ha : Unmarked (c :: a))
    (hx : Opens marks x) (y : Text) : x ≠ c :: a ++ y := by
  rintro rfl
  exact ha c List.mem_cons_self (hx c rfl)

/-- **Two equal texts are cut at their first marks.** -/
theorem cut {a b x y : Text} (ha : Unmarked a) (hb : Unmarked b) (hx : Opens marks x)
    (hy : Opens marks y) (h : a ++ x = b ++ y) : a = b ∧ x = y := by
  induction a generalizing b with
  | nil =>
    cases b with
    | nil => exact ⟨rfl, h⟩
    | cons d b => exact absurd h (ne_cons_of_opens hb hx y)
  | cons c a ih =>
    cases b with
    | nil => exact absurd h.symm (ne_cons_of_opens ha hy x)
    | cons d b =>
      rw [List.cons_append, List.cons_append, List.cons.injEq] at h
      obtain ⟨rfl, h⟩ := h
      obtain ⟨rfl, hxy⟩ := ih (fun c hc => ha c (List.mem_cons_of_mem _ hc))
        (fun c hc => hb c (List.mem_cons_of_mem _ hc)) h
      exact ⟨rfl, hxy⟩

/-! ### names with a mark in front of each -/

def setOff (c : CodePoint) (names : List Text) : Text := names.flatMap fun name => c :: name

theorem setOff_nil (c : CodePoint) : setOff c [] = [] := rfl

theorem setOff_cons (c : CodePoint) (name : Text) (names : List Text) :
    setOff c (name :: names) = c :: (name ++ setOff c names) := rfl

theorem opens_setOff (c : CodePoint) (names : List Text) : Opens [c] (setOff c names) := by
  cases names with
  | nil => exact opens_nil _
  | cons name names => exact opens_cons List.mem_cons_self _

/-- A text that does not go on with one more name. -/
def Ends (P : Text → Prop) (c : CodePoint) (x : Text) : Prop :=
  Opens marks x ∧ ∀ name rest, P name → x ≠ c :: (name ++ rest)

theorem ends_of_opens {P : Text → Prop} {c : CodePoint} {ms : List CodePoint} {x : Text}
    (hx : Opens ms x) (hs : ms ⊆ marks) (hc : c ∉ ms) : Ends P c x := by
  refine ⟨hx.mono hs, fun name rest _ he => hc ?_⟩
  rw [he] at hx
  exact hx c rfl

/-- Names of one kind, each with the mark in front, are cut where the names end. -/
theorem setOff_cut {P : Text → Prop} (hP : ∀ name, P name → Unmarked name) {c : CodePoint}
    (hc : c ∈ marks) {x y : Text} (hx : Ends P c x) (hy : Ends P c y) {as bs : List Text}
    (ha : ∀ a ∈ as, P a) (hb : ∀ b ∈ bs, P b) (h : setOff c as ++ x = setOff c bs ++ y) :
    as = bs ∧ x = y := by
  induction as generalizing bs with
  | nil =>
    cases bs with
    | nil => exact ⟨rfl, h⟩
    | cons b bs =>
      rw [setOff_nil, setOff_cons, List.cons_append, List.append_assoc] at h
      exact absurd h (hx.2 b _ (hb b List.mem_cons_self))
  | cons a as ih =>
    cases bs with
    | nil =>
      rw [setOff_nil, setOff_cons, List.cons_append, List.append_assoc] at h
      exact absurd h.symm (hy.2 a _ (ha a List.mem_cons_self))
    | cons b bs =>
      obtain ⟨hfirst, hrest⟩ := List.forall_mem_cons.mp ha
      obtain ⟨hfirst', hrest'⟩ := List.forall_mem_cons.mp hb
      rw [setOff_cons, setOff_cons, List.cons_append, List.cons_append, List.append_assoc,
        List.append_assoc, List.cons.injEq] at h
      have hopens : ∀ names : List Text, Opens marks (setOff c names) := fun names =>
        (opens_setOff c names).mono (List.forall_mem_singleton.mpr hc)
      obtain ⟨rfl, hbehind⟩ := cut (hP a hfirst) (hP b hfirst') ((hopens as).append hx.1)
        ((hopens bs).append hy.1) h.2
      obtain ⟨rfl, hxy⟩ := ih hrest hrest' hbehind
      exact ⟨rfl, hxy⟩

/-! ### attribute fragments -/

open Compound (attributeText)

/-- Attribute fragments with a separator between them. -/
def conditions (separator : Text) (items : List Text) : Text :=
  separator.intercalate (items.map attributeText)

/-- Attribute fragments with the separator in front of each. -/
def furtherConditions (separator : Text) (items : List Text) : Text :=
  items.flatMap fun item => separator ++ attributeText item

theorem furtherConditions_cons (separator item : Text) (items : List Text) :
    furtherConditions separator (item :: items)
      = separator ++ (attributeText item ++ furtherConditions separator items) := by
  show separator ++ attributeText item ++ furtherConditions separator items = _
  rw [List.append_assoc]

theorem conditions_cons (separator item : Text) (items : List Text) :
    conditions separator (item :: items)
      = attributeText item ++ furtherConditions separator items := by
  induction items generalizing item with
  | nil =>
    show separator.intercalate [attributeText item] = attributeText item ++ []
    rw [List.intercalate_singleton, List.append_nil]
  | cons next items ih =>
    show separator.intercalate (attributeText item :: attributeText next :: _) = _
    rw [List.intercalate_cons_cons, furtherConditions_cons, ← ih, List.append_assoc]
    rfl

theorem opens_conditions (separator : Text) (items : List Text) :
    Opens [('[' : CodePoint)] (conditions separator items) := by
  cases items with
  | nil => exact opens_nil _
  | cons item items =>
    rw [conditions_cons]
    exact opens_cons List.mem_cons_self _

/-- A condition ends at the first closing bracket. -/
theorem attributeText_cut {a b x y : Text} (ha : (']' : CodePoint) ∉ a)
    (hb : (']' : CodePoint) ∉ b) (h : attributeText a ++ x = attributeText b ++ y) :
    a = b ∧ x = y := by
  have hsplit : ∀ t z : Text, (']' : CodePoint) ∉ t →
      splitAt? ']' (attributeText t ++ z).tail = some (t, z) := by
    intro t z ht
    show splitAt? ']' ((t ++ [(']' : CodePoint)]) ++ z) = some (t, z)
    rw [List.append_assoc]
    exact splitAt?_append _ t z ht
  have heq := hsplit a x ha
  rw [h, hsplit b y hb, Option.some.injEq, Prod.mk.injEq] at heq
  exact ⟨heq.1.symm, heq.2.symm⟩

section

variable {separator x y : Text} {as bs : List Text}

/-- The separator is known, and an opening bracket behind it belongs to one more fragment. -/
theorem furtherConditions_cut (hx : ('[' : CodePoint) ∉ x) (hy : ('[' : CodePoint) ∉ y)
    (ha : ∀ a ∈ as, (']' : CodePoint) ∉ a) (hb : ∀ b ∈ bs, (']' : CodePoint) ∉ b)
    (h : furtherConditions separator as ++ x = furtherConditions separator bs ++ y) :
    as = bs ∧ x = y := by
  have hbracket : ∀ (item : Text) (items : List Text) (z : Text),
      ('[' : CodePoint) ∈ furtherConditions separator (item :: items) ++ z := by
    intro item items z
    rw [furtherConditions_cons]
    exact List.mem_append_left z (List.mem_append_right separator List.mem_cons_self)
  induction as generalizing bs with
  | nil =>
    cases bs with
    | nil => exact ⟨rfl, h⟩
    | cons b bs =>
      have hmem := hbracket b bs y
      rw [← h] at hmem
      exact absurd hmem hx
  | cons a as ih =>
    cases bs with
    | nil =>
      have hmem := hbracket a as x
      rw [h] at hmem
      exact absurd hmem hy
    | cons b bs =>
      obtain ⟨hfirst, hrest⟩ := List.forall_mem_cons.mp ha
      obtain ⟨hfirst', hrest'⟩ := List.forall_mem_cons.mp hb
      rw [furtherConditions_cons, furtherConditions_cons, List.append_assoc, List.append_assoc,
        List.append_assoc, List.append_assoc] at h
      obtain ⟨rfl, hbehind⟩ := attributeText_cut hfirst hfirst' (List.append_cancel_left h)
      obtain ⟨rfl, hxy⟩ := ih hrest hrest' hbehind
      exact ⟨rfl, hxy⟩

/-- **Attribute fragments are cut where no opening bracket follows**, whatever separates them. -/
theorem conditions_cut (hx : ('[' : CodePoint) ∉ x) (hy : ('[' : CodePoint) ∉ y)
    (ha : ∀ a ∈ as, (']' : CodePoint) ∉ a) (hb : ∀ b ∈ bs, (']' : CodePoint) ∉ b)
    (h : conditions separator as ++ x = conditions separator bs ++ y) : as = bs ∧ x = y := by
  have hbracket : ∀ (item : Text) (items : List Text) (z : Text),
      ('[' : CodePoint) ∈ conditions separator (item :: items) ++ z := by
    intro item items z
    rw [conditions_cons]
    exact List.mem_append_left z (List.mem_append_left _ List.mem_cons_self)
  cases as with
  | nil =>
    cases bs with
    | nil => exact ⟨rfl, h⟩
    | cons b bs =>
      have hmem := hbracket b bs y
      rw [← h] at hmem
      exact absurd hmem hx
  | cons a as =>
    cases bs with
    | nil =>
      have hmem := hbracket a as x
      rw [h] at hmem
      exact absurd hmem hy
    | cons b bs =>
      obtain ⟨hfirst, hrest⟩ := List.forall_mem_cons.mp ha
      obtain ⟨hfirst', hrest'⟩ := List.forall_mem_cons.mp hb
      rw [conditions_cons, conditions_cons, List.append_assoc, List.append_assoc] at h
      obtain ⟨rfl, hbehind⟩ := attributeText_cut hfirst hfirst' h
      obtain ⟨rfl, hxy⟩ := furtherConditions_cut hx hy hrest hrest' hbehind
      exact ⟨rfl, hxy⟩

end

end Text

namespace Fragment

open Text (Unmarked)

/-- A value that keeps clear of the marks; nothing but the closing bracket is kept out of a
condition, and a name that nothing sets off from what follows is not empty. -/
def Clean (f : Fragment) : Prop :=
  match f.stage with
  | .element | .pseudoClass => Unmarked f.value ∧ f.value ≠ []
  | .id | .styleClass | .pseudoElement => Unmarked f.value
  | .attr => (']' : CodePoint) ∉ f.value

instance : (f : Fragment) → Decidable f.Clean
  | ⟨.element, value⟩ | ⟨.pseudoClass, value⟩ =>
    inferInstanceAs (Decidable (Unmarked value ∧ value ≠ []))
  | ⟨.id, value⟩ | ⟨.styleClass, value⟩ | ⟨.pseudoElement, value⟩ =>
    inferInstanceAs (Decidable (Unmarked value))
  | ⟨.attr, value⟩ => inferInstanceAs (Decidable ((']' : CodePoint) ∉ value))

end Fragment

namespace Compound

open Text

/-! ### the text, part by part -/

/-- The pseudo-element as the end of the text. -/
def closing (s : Compound) : Text := (s.pseudoElement.map pseudoElementText).getD []

def pseudoPart (s : Compound) : Text := setOff ':' s.pseudoClasses ++ s.closing

def attributePart (s : Compound) : Text :=
  conditions s.config.separator s.attributes ++ s.pseudoPart

def classPart (s : Compound) : Text := setOff '.' s.classes ++ s.attributePart

def idPart (s : Compound) : Text := setOff '#' s.id.toList ++ s.classPart

theorem render_eq (s : Compound) : s.render = s.element.getD [] ++ s.idPart := by
  have helement : (s.element.map elementText).getD [] = s.element.getD [] := by
    cases s.element <;> rfl
  have hid : (s.id.map idText).getD [] = setOff '#' s.id.toList := by
    cases s.id with
    | none => rfl
    | some name =>
      show idText name = idText name ++ []
      rw [List.append_nil]
  unfold render
  rw [helement, hid, List.append_assoc, List.append_assoc, List.append_assoc, List.append_assoc]
  rfl

theorem opens_closing (s : Compound) : Opens [(':' : CodePoint)] s.closing := by
  unfold closing
  cases s.pseudoElement with
  | none => exact opens_nil _
  | some name => exact opens_cons List.mem_cons_self _

theorem opens_pseudoPart (s : Compound) : Opens [(':' : CodePoint)] s.pseudoPart :=
  (opens_setOff _ _).append s.opens_closing

theorem opens_attributePart (s : Compound) :
    Opens [('[' : CodePoint), (':' : CodePoint)] s.attributePart :=
  ((opens_conditions _ _).mono (by decide)).append (s.opens_pseudoPart.mono (by decide))

theorem opens_classPart (s : Compound) :
    Opens [('.' : CodePoint), ('[' : CodePoint), (':' : CodePoint)] s.classPart :=
  ((opens_setOff _ _).mono (by decide)).append (s.opens_attributePart.mono (by decide))

theorem opens_idPart (s : Compound) : Opens marks s.idPart :=
  ((opens_setOff _ _).mono (by decide)).append (s.opens_classPart.mono (by decide))

/-! ### clean selectors -/

def Clean (s : Compound) : Prop := ∀ f ∈ s.fragments, f.Clean

section

variable {s t : Compound}

theorem Clean.held (h : s.Clean) {stage : Stage} {value : Text} (hv : value ∈ s.held stage) :
    Fragment.Clean ⟨stage, value⟩ := h ⟨stage, value⟩ (mem_fragments.mpr hv)

theorem Clean.element (h : s.Clean) : Unmarked (s.element.getD []) := by
  have hheld := @Clean.held _ h .element
  unfold Compound.held at hheld
  cases he : s.element with
  | none => exact fun _ hc => absurd hc List.not_mem_nil
  | some name =>
    rw [he] at hheld
    exact (hheld List.mem_cons_self).1

/-- An element that is there is not empty. -/
theorem Clean.element_eq (hs : s.Clean) (ht : t.Clean)
    (h : s.element.getD [] = t.element.getD []) : s.element = t.element := by
  have hne : ∀ u : Compound, u.Clean → u.element ≠ some [] := by
    intro u hu he
    have hheld := @Clean.held _ hu .element []
    unfold Compound.held at hheld
    rw [he] at hheld
    exact (hheld List.mem_cons_self).2 rfl
  cases hse : s.element with
  | none =>
    cases hte : t.element with
    | none => rfl
    | some name =>
      rw [hse, hte] at h
      have hnil : name = [] := h.symm
      rw [hnil] at hte
      exact absurd hte (hne t ht)
  | some name =>
    cases hte : t.element with
    | none =>
      rw [hse, hte] at h
      have hnil : name = [] := h
      rw [hnil] at hse
      exact absurd hse (hne s hs)
    | some name' =>
      rw [hse, hte] at h
      exact congrArg some h

/-- The end of the text is no further pseudo-class: its second colon would belong to the name. -/
theorem ends_closing (s : Compound) :
    Ends (fun name => Unmarked name ∧ name ≠ []) ':' s.closing := by
  refine ⟨s.opens_closing.mono (by decide), fun name rest hname he => ?_⟩
  unfold closing at he
  cases hp : s.pseudoElement with
  | none =>
    rw [hp] at he
    cases he
  | some value =>
    rw [hp] at he
    cases name with
    | nil => exact hname.2 rfl
    | cons c name =>
      have hc : (':' : CodePoint) = c := (List.cons.inj (List.cons.inj he).2).1
      exact hname.1 c List.mem_cons_self (by rw [← hc]; decide)

theorem pseudoElement_eq_of_closing_eq (h : s.closing = t.closing) :
    s.pseudoElement = t.pseudoElement := by
  unfold closing at h
  cases hs : s.pseudoElement with
  | none =>
    cases ht : t.pseudoElement with
    | none => rfl
    | some name =>
      rw [hs, ht] at h
      cases h
  | some name =>
    cases ht : t.pseudoElement with
    | none =>
      rw [hs, ht] at h
      cases h
    | some name' =>
      rw [hs, ht] at h
      exact congrArg some (List.cons.inj (List.cons.inj h).2).2

theorem Clean.openBracket_notMem (h : s.Clean) : ('[' : CodePoint) ∉ s.pseudoPart := by
  have hbracket : ∀ name, Unmarked name → ('[' : CodePoint) ∉ name := fun name hn hmem =>
    hn _ hmem (by decide)
  intro hmem
  rcases List.mem_append.mp hmem with hmem | hmem
  · obtain ⟨name, hname, hc⟩ := List.mem_flatMap.mp hmem
    rcases List.mem_cons.mp hc with hc | hc
    · exact absurd hc (by decide)
    · exact hbracket name (@Clean.held _ h .pseudoClass name hname).1 hc
  · have hheld := @Clean.held _ h .pseudoElement
    unfold closing at hmem
    unfold Compound.held at hheld
    cases hp : s.pseudoElement with
    | none =>
      rw [hp] at hmem
      cases hmem
    | some value =>
      rw [hp] at hmem hheld
      rcases List.mem_cons.mp hmem with hc | hmem
      · exact absurd hc (by decide)
      · rcases List.mem_cons.mp hmem with hc | hc
        · exact absurd hc (by decide)
        · exact hbracket value (hheld List.mem_cons_self) hc

/-- Two clean selectors with equal texts hold the same values. -/
theorem Clean.held_eq (hs : s.Clean) (ht : t.Clean)
    (hconfig : s.config.separator = t.config.separator) (h : s.render = t.render)
    (stage : Stage) : s.held stage = t.held stage := by
  rw [render_eq, render_eq] at h
  obtain ⟨helement, h⟩ := cut hs.element ht.element s.opens_idPart t.opens_idPart h
  obtain ⟨hid, h⟩ := setOff_cut (P := Unmarked) (fun _ hn => hn) (by decide)
    (ends_of_opens s.opens_classPart (by decide) (by decide))
    (ends_of_opens t.opens_classPart (by decide) (by decide))
    (fun _ hn => @Clean.held _ hs .id _ hn) (fun _ hn => @Clean.held _ ht .id _ hn) h
  obtain ⟨hclasses, h⟩ := setOff_cut (P := Unmarked) (fun _ hn => hn) (by decide)
    (ends_of_opens s.opens_attributePart (by decide) (by decide))
    (ends_of_opens t.opens_attributePart (by decide) (by decide))
    (fun _ hn => @Clean.held _ hs .styleClass _ hn)
    (fun _ hn => @Clean.held _ ht .styleClass _ hn) h
  unfold attributePart at h
  rw [hconfig] at h
  obtain ⟨hattributes, h⟩ := conditions_cut hs.openBracket_notMem ht.openBracket_notMem
    (fun _ hn => @Clean.held _ hs .attr _ hn) (fun _ hn => @Clean.held _ ht .attr _ hn) h
  obtain ⟨hpseudo, h⟩ := setOff_cut (fun _ hn => hn.1) (by decide) s.ends_closing t.ends_closing
    (fun _ hn => @Clean.held _ hs .pseudoClass _ hn)
    (fun _ hn => @Clean.held _ ht .pseudoClass _ hn) h
  cases stage with
  | element => exact congrArg Option.toList (hs.element_eq ht helement)
  | id => exact hid
  | styleClass => exact hclasses
  | attr => exact hattributes
  | pseudoClass => exact hpseudo
  | pseudoElement => exact congrArg Option.toList (pseudoElement_eq_of_closing_eq h)

end

/-! ### fragments one after the other -/

/-- A selector with further fragments; the first one that is rejected ends it. -/
def appendAll (s : Compound) (fragments : List Fragment) : Except Rejection Compound :=
  fragments.foldlM (fun s f => s.append f.stage f.value) s

theorem appendAll_cons (s : Compound) (f : Fragment) (fragments : List Fragment) :
    s.appendAll (f :: fragments)
      = s.append f.stage f.value >>= fun s => s.appendAll fragments := by
  rw [appendAll, List.foldlM_cons]
  rfl

theorem appendAll_eq_ok {s t : Compound} {fragments : List Fragment} (hs : s.Consistent)
    (h : s.appendAll fragments = .ok t) :
    t.fragments = s.fragments ++ fragments ∧ t.config = s.config := by
  induction fragments generalizing s with
  | nil =>
    cases h
    exact ⟨(List.append_nil _).symm, rfl⟩
  | cons f fragments ih =>
    rw [appendAll_cons] at h
    cases ha : s.append f.stage f.value with
    | error r => rw [ha] at h; cases h
    | ok s' =>
      rw [ha] at h
      obtain ⟨hs', hf⟩ := append_consistent hs ha
      obtain ⟨ht, hconfig⟩ := ih hs' h
      obtain ⟨_, rfl⟩ := (append_eq_ok_iff _ _ _ _).mp ha
      rw [hf, List.append_assoc] at ht
      exact ⟨ht, hconfig.trans (config_place s f.stage f.value)⟩

/-- **Equal texts come from equal fragments.** Two selectors with one configuration and clean values
have the same text only if the same fragments were appended to them, in the same order. -/
theorem render_eq_iff {config : Config} {fs gs : List Fragment} {s t : Compound}
    (hs : (empty config).appendAll fs = .ok s) (ht : (empty config).appendAll gs = .ok t)
    (hfs : ∀ f ∈ fs, f.Clean) (hgs : ∀ g ∈ gs, g.Clean) : s.render = t.render ↔ fs = gs := by
  constructor
  · intro h
    obtain ⟨hsf, hsc⟩ := appendAll_eq_ok (consistent_empty config) hs
    obtain ⟨htf, htc⟩ := appendAll_eq_ok (consistent_empty config) ht
    rw [fragments_empty, List.nil_append] at hsf htf
    have hsclean : s.Clean := by rwa [Clean, hsf]
    have htclean : t.Clean := by rwa [Clean, htf]
    have hheld := hsclean.held_eq htclean (by rw [hsc, htc]) h
    rw [← hsf, ← htf]
    unfold fragments
    rw [funext hheld]
  · rintro rfl
    rw [hs] at ht
    rw [Except.ok.inj ht]

/-- Conditions that hold brackets and colons, and a separator that looks like a pseudo-class. -/
theorem render_eq_iff_nearMiss :
    let config : Config := { separator := ":x" }
    let fs : List Fragment := [⟨.element, "a"⟩, ⟨.id, []⟩, ⟨.attr, "b:.["⟩, ⟨.attr, "c"⟩,
      ⟨.pseudoElement, []⟩]
    let gs : List Fragment := [⟨.element, "a"⟩, ⟨.id, []⟩, ⟨.attr, "b:.["⟩, ⟨.pseudoClass, "x"⟩,
      ⟨.pseudoElement, "c"⟩]
    ∃ s t, (empty config).appendAll fs = .ok s ∧ (empty config).appendAll gs = .ok t ∧
      (∀ f ∈ fs, f.Clean) ∧ (∀ g ∈ gs, g.Clean) ∧ (s.render = t.render ↔ fs = gs) :=
  ⟨_, _, rfl, rfl, by decide, by decide, render_eq_iff rfl rfl (by decide) (by decide)⟩

end Compound

end SelectorForge
