import SelectorForge.Proofs.Json.Reading
import Mathlib.Data.List.Forall2

/-!
# Written and read back

A document is exact if its written form says all of it: its integers fit, and none of its texts has
a high surrogate with a low one after it. The text of an exact document spells it
(`Exact.spells`), so this document is what the reader makes of the text (`Exact.ofText_render`).
What a text without surrogates spells is exact, unless it has a floating point number
(`Spells.exact`).
-/

namespace SelectorForge.Json

open CodePoint

inductive Exact : Json → Prop
  | null : Exact .null
  | bool (b : Bool) : Exact (.bool b)
  | int {n : Int} (h : Number.FitsDigits n) : Exact (.int n)
  | str {t : Text} (h : Stable t) : Exact (.str t)
  | arr {items : List Json} (h : ∀ d ∈ items, Exact d) : Exact (.arr items)
  | obj {members : List (Text × Json)} (hn : ∀ m ∈ members, Stable m.1)
    (h : ∀ m ∈ members, Exact m.2) : Exact (.obj members)

/-! ### the text of an exact document -/

theorem spellsName_literal {name : Text} (h : Stable name) :
    SpellsName (literal name ++ [colon]) name :=
  .mk (spellsString_literal h) blank_nil blank_nil

theorem spellsItems_render {d : Json} {ds : List Json} (h : ∀ x ∈ d :: ds, Spells (render x) x) :
    SpellsItems (render d ++ renderItems ds) (d :: ds) := by
  induction ds generalizing d with
  | nil =>
    rw [renderItems_nil]
    exact .last (h d List.mem_cons_self) blank_nil
  | cons e ds ih =>
    rw [renderItems]
    exact .more (b := []) (h d List.mem_cons_self) blank_nil blank_nil
      (ih fun x hx => h x (List.mem_cons_of_mem d hx))

/-- A member is written so that another one is read. -/
def SpellsMember (m m' : Text × Json) : Prop :=
  SpellsName (literal m.1 ++ [colon]) m'.1 ∧ Spells (render m.2) m'.2

theorem spellsMembers_render {m m' : Text × Json} {ms ms' : List (Text × Json)}
    (h : List.Forall₂ SpellsMember (m :: ms) (m' :: ms')) :
    SpellsMembers (literal m.1 ++ [colon] ++ (render m.2 ++ renderMembers ms)) (m' :: ms') := by
  induction ms generalizing m m' ms' with
  | nil =>
    obtain ⟨⟨hname, hvalue⟩, hrest⟩ := List.forall₂_cons.mp h
    cases hrest
    rw [renderMembers_nil]
    exact .last hname hvalue blank_nil
  | cons n ms ih =>
    obtain ⟨⟨hname, hvalue⟩, hrest⟩ := List.forall₂_cons.mp h
    obtain ⟨n', ms'', hn, hms, rfl⟩ := List.forall₂_cons_left_iff.mp hrest
    have hall := SpellsMembers.more hname hvalue blank_nil blank_nil (ih (.cons hn hms))
    rw [renderMembers]
    simpa only [List.nil_append, List.append_assoc, List.cons_append] using hall

/-- What the text of an object spells, from what the texts of its members spell. -/
theorem spells_members {ms ms' : List (Text × Json)} (h : List.Forall₂ SpellsMember ms ms') :
    Spells (render (.obj ms)) (.obj ms') := by
  cases h with
  | nil =>
    rw [render]
    exact .emptyObject blank_nil
  | cons hm hms =>
    have hspells := Spells.object blank_nil (spellsMembers_render (.cons hm hms))
    rw [render]
    simpa only [List.nil_append, List.append_assoc, List.cons_append] using hspells

/-- **The text of an exact document spells it.** -/
theorem Exact.spells {d : Json} (h : Exact d) : Spells (render d) d := by
  induction h with
  | null => exact .word (by simp [words, render])
  | bool b => cases b <;> exact .word (by simp [words, render])
  | int h =>
    rw [render_int]
    exact .numeral (spellsNumeral_integerText _) (value_integerText h)
  | str h =>
    rw [render_str]
    exact .string (spellsString_literal h)
  | @arr items h ih =>
    cases items with
    | nil =>
      rw [render]
      exact .emptyArray blank_nil
    | cons d ds =>
      rw [render, List.cons_append]
      exact .array (b := []) blank_nil (spellsItems_render ih)
  | obj hn _ ih =>
    exact spells_members (List.forall₂_same.mpr fun m hm => ⟨spellsName_literal (hn m hm), ih m hm⟩)

theorem ofText_of_spells {t : Text} {d : Json} (h : Spells t d) : ofText t = .ok d.merged := by
  have hs := Spelled.mk blank_nil h blank_nil
  rw [List.nil_append, List.append_nil] at hs
  exact ofText_eq_ok_iff.mpr ⟨d, hs, rfl⟩

theorem Exact.ofText_render {d : Json} (h : Exact d) : ofText (render d) = .ok d.merged :=
  ofText_of_spells h.spells

theorem Exact.merged {d : Json} (h : Exact d) : Exact d.merged := by
  induction h with
  | null => exact .null
  | bool b => exact .bool b
  | int h => exact .int h
  | str h => exact .str h
  | @arr items _ ih =>
    rw [merged_arr]
    refine .arr fun d hd => ?_
    obtain ⟨raw, hraw, rfl⟩ := List.mem_map.mp hd
    exact ih raw hraw
  | @obj members hn _ ih =>
    rw [merged_obj]
    have hmem : ∀ m ∈ Fields.collapse (members.map fun m => (m.1, Json.merged m.2)),
        ∃ raw ∈ members, (raw.1, Json.merged raw.2) = m := fun m hm =>
      List.mem_map.mp (Fields.mem_of_mem_collapse hm)
    refine .obj (fun m hm => ?_) fun m hm => ?_
    · obtain ⟨raw, hraw, rfl⟩ := hmem m hm
      exact hn raw hraw
    · obtain ⟨raw, hraw, rfl⟩ := hmem m hm
      exact ih raw hraw

/-! ### what a text without surrogates spells -/

/-- Nowhere in the document is a floating point number. -/
inductive Integral : Json → Prop
  | null : Integral .null
  | bool (b : Bool) : Integral (.bool b)
  | int (n : Int) : Integral (.int n)
  | str (t : Text) : Integral (.str t)
  | arr {items : List Json} (h : ∀ d ∈ items, Integral d) : Integral (.arr items)
  | obj {members : List (Text × Json)} (h : ∀ m ∈ members, Integral m.2) : Integral (.obj members)

theorem SpellsName.stable {k name : Text} (h : SpellsName k name) (hk : SurrogateFree k) :
    Stable name := by
  cases h with
  | mk h => exact h.stable (surrogateFree_append.mp hk).1

theorem exact_of_mem_words {word : Text} {d : Json} (h : (word, d) ∈ words) (hd : Integral d) :
    Exact d := by
  simp only [words, List.mem_cons, List.not_mem_nil, or_false, Prod.mk.injEq] at h
  rcases h with ⟨_, rfl⟩ | ⟨_, rfl⟩ | ⟨_, rfl⟩ | ⟨_, rfl⟩ | ⟨_, rfl⟩ | ⟨_, rfl⟩
  · exact .null
  · exact .bool true
  · exact .bool false
  · cases hd
  · cases hd
  · cases hd

theorem exact_of_value {s : Text} {n : Numeral} {d : Json} (h : SpellsNumeral s n)
    (hv : n.value = .ok d) (hd : Integral d) : Exact d := by
  cases hd with
  | int k => exact .int (fitsDigits_of_value h hv)
  | null | bool _ | str _ | arr _ | obj _ =>
    unfold Numeral.value at hv
    split at hv
    · split at hv <;> cases hv
    · cases hv

mutual

theorem Spells.exact {s : Text} {d : Json} (h : Spells s d) (hs : SurrogateFree s)
    (hd : Integral d) : Exact d := by
  cases h with
  | word h => exact exact_of_mem_words h hd
  | numeral h hv => exact exact_of_value h hv hd
  | string h => exact .str (h.stable hs)
  | emptyArray _ => exact .arr fun d hd => absurd hd List.not_mem_nil
  | array _ h =>
    cases hd with
    | arr hd => exact .arr (h.exact (surrogateFree_append.mp (surrogateFree_of_cons hs)).2 hd)
  | emptyObject _ =>
    exact .obj (fun m hm => absurd hm List.not_mem_nil) fun m hm => absurd hm List.not_mem_nil
  | object _ h =>
    cases hd with
    | obj hd =>
      have hms := h.exact (surrogateFree_append.mp (surrogateFree_of_cons hs)).2 hd
      exact .obj (fun m hm => (hms m hm).1) fun m hm => (hms m hm).2

theorem SpellsItems.exact {s : Text} {ds : List Json} (h : SpellsItems s ds)
    (hs : SurrogateFree s) (hd : ∀ d ∈ ds, Integral d) : ∀ d ∈ ds, Exact d := by
  cases h with
  | last h _ =>
    have hfirst := h.exact (surrogateFree_append.mp hs).1 (hd _ List.mem_cons_self)
    exact List.forall_mem_singleton.mpr hfirst
  | more h _ _ ht =>
    simp only [surrogateFree_append] at hs
    have hfirst := h.exact hs.1 (hd _ List.mem_cons_self)
    have hrest := ht.exact (surrogateFree_append.mp (surrogateFree_of_cons hs.2.2)).2
      fun x hx => hd x (List.mem_cons_of_mem _ hx)
    exact List.forall_mem_cons.mpr ⟨hfirst, hrest⟩

theorem SpellsMembers.exact {s : Text} {ms : List (Text × Json)} (h : SpellsMembers s ms)
    (hs : SurrogateFree s) (hd : ∀ m ∈ ms, Integral m.2) : ∀ m ∈ ms, Stable m.1 ∧ Exact m.2 := by
  cases h with
  | last hk h _ =>
    simp only [surrogateFree_append] at hs
    have hfirst := h.exact hs.2.1 (hd _ List.mem_cons_self)
    exact List.forall_mem_singleton.mpr ⟨hk.stable hs.1, hfirst⟩
  | more hk h _ _ ht =>
    simp only [surrogateFree_append] at hs
    have hfirst := h.exact hs.2.1 (hd _ List.mem_cons_self)
    have hrest := ht.exact (surrogateFree_append.mp (surrogateFree_of_cons hs.2.2.2)).2
      fun x hx => hd x (List.mem_cons_of_mem _ hx)
    exact List.forall_mem_cons.mpr ⟨⟨hk.stable hs.1, hfirst⟩, hrest⟩

end

theorem Spelled.exact {t : Text} {raw : Json} (h : Spelled t raw) (ht : SurrogateFree t)
    (hraw : Integral raw) : Exact raw := by
  cases h with
  | mk _ h _ => exact h.exact (surrogateFree_append.mp (surrogateFree_append.mp ht).2).1 hraw

end SelectorForge.Json
