import SelectorForge.Proofs.Selector.Unambiguous

/-!
# The text of a selector, fragment by fragment

The text of a selector is put together stage by stage, with the separator between the attribute
fragments. It is also the text of its fragments one after the other, where a separator comes in only
between two attribute fragments in a row:

* `Fragment.text`              a fragment with its marks;
* `Fragment.addition`          what a further fragment adds to a text;
* `Fragment.inOrder`           the text of a list of fragments;
* `Compound.render_eq_inOrder` the text of a selector.
-/

namespace SelectorForge

namespace Fragment

/-! ### fragments one after the other -/

def text (f : Fragment) : Text :=
  match f.stage with
  | .element => f.value
  | .id => ('#' : CodePoint) :: f.value
  | .styleClass => ('.' : CodePoint) :: f.value
  | .attr => ('[' : CodePoint) :: f.value ++ [(']' : CodePoint)]
  | .pseudoClass => (':' : CodePoint) :: f.value
  | .pseudoElement => (':' : CodePoint) :: (':' : CodePoint) :: f.value

def isAttribute (f : Fragment) : Bool := f.stage == .attr

/-- The text of a fragment, with a separator between it and an attribute fragment in front of it if
it is one itself. -/
def addition (separator : Text) (behindAttribute : Bool) (f : Fragment) : Text :=
  (if behindAttribute ∧ f.isAttribute then separator else []) ++ f.text

/-- The text of fragments, behind an attribute fragment or not. -/
def inOrder (separator : Text) (behindAttribute : Bool) : List Fragment → Text
  | [] => []
  | f :: fs => f.addition separator behindAttribute ++ inOrder separator f.isAttribute fs

/-- Whether the last fragment is an attribute fragment. -/
def endsInAttribute (fs : List Fragment) : Bool := (fs.getLast?.map isAttribute).getD false

variable {separator : Text} {behindAttribute : Bool}

theorem inOrder_cons (f : Fragment) (fs : List Fragment) :
    inOrder separator behindAttribute (f :: fs)
      = f.addition separator behindAttribute ++ inOrder separator f.isAttribute fs := rfl

theorem addition_of_not_attribute {f : Fragment} (h : f.isAttribute = false) :
    f.addition separator behindAttribute = f.text := by
  rw [addition, if_neg (by simp [h]), List.nil_append]

/-- **One more fragment** adds to the end of the text what the last fragment makes of it. -/
theorem inOrder_concat (fs : List Fragment) (f : Fragment) :
    inOrder separator false (fs ++ [f])
      = inOrder separator false fs ++ f.addition separator (endsInAttribute fs) := by
  have hall : ∀ b, inOrder separator b (fs ++ [f])
      = inOrder separator b fs ++ f.addition separator ((fs.getLast?.map isAttribute).getD b) := by
    induction fs with
    | nil =>
      intro b
      show f.addition separator b ++ [] = f.addition separator b
      rw [List.append_nil]
    | cons g fs ih =>
      intro b
      have hlast : (((g :: fs).getLast?).map isAttribute).getD b
          = (fs.getLast?.map isAttribute).getD g.isAttribute := by
        rw [List.getLast?_cons]
        cases fs.getLast? <;> rfl
      rw [List.cons_append, inOrder_cons, inOrder_cons, ih, hlast, List.append_assoc]
  exact hall false

/-! ### fragments of one stage -/

/-- Without attribute fragments there is no separator. -/
theorem inOrder_of_not_attribute {fs : List Fragment} (h : ∀ f ∈ fs, f.isAttribute = false) :
    inOrder separator behindAttribute fs = fs.flatMap text := by
  induction fs generalizing behindAttribute with
  | nil => rfl
  | cons f fs ih =>
    obtain ⟨hf, hfs⟩ := List.forall_mem_cons.mp h
    rw [inOrder_cons, addition_of_not_attribute hf, ih hfs]
    rfl

theorem inOrder_stage_append {stage : Stage} (h : stage ≠ .attr) (values : List Text)
    (rest : List Fragment) :
    inOrder separator false (values.map (Fragment.mk stage) ++ rest)
      = (values.map (Fragment.mk stage)).flatMap text ++ inOrder separator false rest := by
  have hstage : ∀ value, (Fragment.mk stage value).isAttribute = false := fun _ =>
    beq_eq_false_iff_ne.mpr h
  induction values with
  | nil => rfl
  | cons value values ih =>
    rw [List.map_cons, List.cons_append, inOrder_cons, addition_of_not_attribute (hstage value),
      hstage value, ih, List.flatMap_cons, List.append_assoc]

/-- Behind an attribute fragment each further one has the separator in front. -/
theorem inOrder_further_append (values : List Text) {rest : List Fragment}
    (h : ∀ f ∈ rest, f.isAttribute = false) :
    inOrder separator true (values.map (Fragment.mk .attr) ++ rest)
      = Text.furtherConditions separator values ++ rest.flatMap text := by
  induction values with
  | nil => exact inOrder_of_not_attribute h
  | cons value values ih =>
    rw [List.map_cons, List.cons_append, inOrder_cons]
    show separator ++ Compound.attributeText value ++ inOrder separator true _ = _
    rw [ih, Text.furtherConditions_cons, List.append_assoc, List.append_assoc, List.append_assoc]

theorem inOrder_attributes_append (values : List Text) {rest : List Fragment}
    (h : ∀ f ∈ rest, f.isAttribute = false) :
    inOrder separator false (values.map (Fragment.mk .attr) ++ rest)
      = Text.conditions separator values ++ rest.flatMap text := by
  cases values with
  | nil => exact inOrder_of_not_attribute h
  | cons value values =>
    rw [List.map_cons, List.cons_append, inOrder_cons]
    show Compound.attributeText value ++ inOrder separator true _ = _
    rw [inOrder_further_append values h, Text.conditions_cons, List.append_assoc]

end Fragment

namespace Compound

open Fragment

/-- The fragments of one stage. -/
def fragmentsOf (s : Compound) (stage : Stage) : List Fragment :=
  (s.held stage).map (Fragment.mk stage)

theorem flatMap_text_single {t : Option Text} {stage : Stage} {f : Text → Text}
    (h : ∀ value, (Fragment.mk stage value).text = f value) :
    (t.toList.map (Fragment.mk stage)).flatMap text = (t.map f).getD [] := by
  cases t with
  | none => rfl
  | some value =>
    show (Fragment.mk stage value).text ++ [] = f value
    rw [List.append_nil, h]

theorem flatMap_text_list {values : List Text} {stage : Stage} {f : Text → Text}
    (h : ∀ value, (Fragment.mk stage value).text = f value) :
    (values.map (Fragment.mk stage)).flatMap text = values.flatMap f := by
  rw [List.flatMap_map]
  exact congrArg (fun g => values.flatMap g) (funext h)

/-- **The text of a selector is the text of its fragments in order.** -/
theorem render_eq_inOrder (s : Compound) :
    s.render = inOrder s.config.separator false s.fragments := by
  have hfragments : s.fragments = s.fragmentsOf .element ++ (s.fragmentsOf .id ++
      (s.fragmentsOf .styleClass ++ (s.fragmentsOf .attr ++
        (s.fragmentsOf .pseudoClass ++ s.fragmentsOf .pseudoElement)))) := by
    show _ ++ (_ ++ (_ ++ (_ ++ (_ ++ (_ ++ []))))) = _
    rw [List.append_nil]
    rfl
  have hlast : ∀ f ∈ s.fragmentsOf .pseudoClass ++ s.fragmentsOf .pseudoElement,
      f.isAttribute = false := by
    intro f hf
    rcases List.mem_append.mp hf with hf | hf
    · obtain ⟨value, -, rfl⟩ := List.mem_map.mp hf
      rfl
    · obtain ⟨value, -, rfl⟩ := List.mem_map.mp hf
      rfl
  have helement : (s.fragmentsOf .element).flatMap text = (s.element.map elementText).getD [] :=
    flatMap_text_single fun _ => rfl
  have hid : (s.fragmentsOf .id).flatMap text = (s.id.map idText).getD [] :=
    flatMap_text_single fun _ => rfl
  have hclasses : (s.fragmentsOf .styleClass).flatMap text = s.classes.flatMap classText :=
    flatMap_text_list fun _ => rfl
  have hpseudoClasses : (s.fragmentsOf .pseudoClass).flatMap text
      = s.pseudoClasses.flatMap pseudoClassText := flatMap_text_list fun _ => rfl
  have hpseudoElement : (s.fragmentsOf .pseudoElement).flatMap text
      = (s.pseudoElement.map pseudoElementText).getD [] := flatMap_text_single fun _ => rfl
  have hattributes : inOrder s.config.separator false (s.fragmentsOf .attr ++
      (s.fragmentsOf .pseudoClass ++ s.fragmentsOf .pseudoElement))
      = Text.conditions s.config.separator s.attributes ++
        (s.fragmentsOf .pseudoClass ++ s.fragmentsOf .pseudoElement).flatMap text :=
    inOrder_attributes_append s.attributes hlast
  rw [hfragments]
  unfold fragmentsOf at *
  rw [inOrder_stage_append (by decide), inOrder_stage_append (by decide),
    inOrder_stage_append (by decide), hattributes, List.flatMap_append, helement, hid, hclasses,
    hpseudoClasses, hpseudoElement]
  unfold render
  simp only [List.append_assoc]
  rfl

end Compound

end SelectorForge
