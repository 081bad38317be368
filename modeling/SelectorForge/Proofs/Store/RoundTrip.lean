import SelectorForge.Proofs.Json.Writing
import SelectorForge.Proofs.Store.Depiction
import Mathlib.Data.Fintype.EquivFin

/-!
# Encoded and decoded

A value that does not hold itself, neither at once nor by others, has a document, and the text of
the value is read as this document with the members of one name put together.

* `Store.Acyclic`    nothing that can be reached from a value holds itself;
* `Store.Admitted`   no floating point number, integers that fit, texts without surrogates;
* `Store.Image`      what is to be read back;
* `Store.toJson_image`   it is.
-/

namespace SelectorForge.Store

open Relation

/-! ### from acyclic to accessible -/

/-- Nothing that can be reached from a value holds itself. -/
def Acyclic (st : Store) (v : Value) : Prop :=
  ∀ w, ReflTransGen st.Holds v w → ¬ TransGen st.Holds w w

variable {st : Store} {v : Value}

theorem parts_eq_nil_of_size_le {r : Ref} (h : st.size ≤ r) : st.parts (.ref r) = [] := by
  have hc : st.content r = .closed := by
    by_contra hne
    exact absurd (st.lt_size_of_content_ne hne) (Nat.not_lt.mpr h)
  show (st.content r).parts = []
  rw [hc]
  rfl

/-- The places that can be reached from a value, the deeper ones first. -/
def Below (st : Store) (v : Value) (a b : Fin st.size) : Prop :=
  ReflTransGen st.Holds v (.ref b.val) ∧ TransGen st.Holds (.ref b.val) (.ref a.val)

theorem wellFounded_below (h : st.Acyclic v) : WellFounded (st.Below v) := by
  have htrans : IsTrans (Fin st.size) (st.Below v) :=
    ⟨fun _ _ _ hab hbc => ⟨hbc.1, hbc.2.trans hab.2⟩⟩
  have hirrefl : Std.Irrefl (st.Below v) := ⟨fun a haa => h _ haa.1 haa.2⟩
  exact Finite.wellFounded_of_trans_of_irrefl (st.Below v)

theorem acc_of_reachable (h : st.Acyclic v) (i : Fin st.size)
    (hi : ReflTransGen st.Holds v (.ref i.val)) : Acc (fun w v => st.Holds v w) (.ref i.val) := by
  induction i using (wellFounded_below h).induction with
  | _ i ih =>
    refine Acc.intro _ fun w hw => ?_
    cases w with
    | ref r =>
      by_cases hr : r < st.size
      · exact ih ⟨r, hr⟩ ⟨hi, .single hw⟩ (hi.tail hw)
      · exact acc_of_parts_eq_nil (parts_eq_nil_of_size_le (Nat.le_of_not_lt hr))
    | null | bool | int | float | str | octets | stage | combinator =>
      exact acc_of_parts_eq_nil rfl

theorem Acyclic.acc (h : st.Acyclic v) : Acc (fun w v => st.Holds v w) v := by
  cases v with
  | ref r =>
    by_cases hr : r < st.size
    · exact acc_of_reachable h ⟨r, hr⟩ .refl
    · exact acc_of_parts_eq_nil (parts_eq_nil_of_size_le (Nat.le_of_not_lt hr))
  | null | bool | int | float | str | octets | stage | combinator =>
    exact acc_of_parts_eq_nil rfl

/-! ### what is admitted -/

/-- Scalars that are read back as they are, and keys that become names of members. -/
def AdmittedScalar : Value → Prop
  | .null | .bool _ | .stage _ | .combinator _ => True
  | .int n => Number.FitsDigits n
  | .str t => Json.SurrogateFree t
  | .float _ | .octets _ | .ref _ => False

def Admitted (st : Store) : Value → Prop
  | .ref r =>
    match st.content r with
    | .items _ => True
    | .entries es => ∀ e ∈ es, AdmittedScalar e.1
    | .closed => False
  | v => AdmittedScalar v

theorem fitsDigits_of_lt_ten {n : Int} (h : n.natAbs < Number.powerOfTen 1) :
    Number.FitsDigits n :=
  Nat.lt_of_lt_of_le h (Json.powerOfTen_le_powerOfTen (by decide))

theorem fitsDigits_ordinal (s : Stage) : Number.FitsDigits s.ordinal :=
  fitsDigits_of_lt_ten (by cases s <;> decide)

theorem stable_combinator (c : Combinator) : Json.Stable c.text := by
  cases c <;> exact Json.stable_ofString _

theorem stable_integerText (n : Int) : Json.Stable (Number.integerText n) := by
  refine Json.stable_of_surrogateFree ?_
  unfold Number.integerText Number.naturalText
  split
  · exact List.forall_mem_cons.mpr ⟨rfl, Json.surrogateFree_map_ofChar _⟩
  · exact Json.surrogateFree_map_ofChar _

theorem exists_scalarImage {v : Value} (h : AdmittedScalar v) :
    ∃ d, ScalarImage v d ∧ d.Exact := by
  cases v with
  | null => exact ⟨_, .null, .null⟩
  | bool b => exact ⟨_, .bool b, .bool b⟩
  | int n => exact ⟨_, .int h, .int h⟩
  | str t => exact ⟨_, .str t, .str (Json.stable_of_surrogateFree h)⟩
  | stage s => exact ⟨_, .stage s, .int (fitsDigits_ordinal s)⟩
  | combinator c => exact ⟨_, .combinator c, .str (stable_combinator c)⟩
  | float _ | octets _ | ref _ => exact h.elim

theorem exists_keyImage {key : Value} (h : AdmittedScalar key) :
    ∃ name, KeyImage key name ∧ Json.Stable name := by
  cases key with
  | null => exact ⟨_, .null, Json.stable_ofString _⟩
  | bool b =>
    cases b with
    | true => exact ⟨_, .true, Json.stable_ofString _⟩
    | false => exact ⟨_, .false, Json.stable_ofString _⟩
  | int n => exact ⟨_, .int h, stable_integerText n⟩
  | str t => exact ⟨_, .str t, Json.stable_of_surrogateFree h⟩
  | stage s => exact ⟨_, .stage s, stable_integerText _⟩
  | combinator c => exact ⟨_, .combinator c, stable_combinator c⟩
  | float _ | octets _ | ref _ => exact h.elim

/-! ### the document of a value -/

theorem exists_depictsItems {vs : List Value} (h : ∀ v ∈ vs, ∃ d, st.Depicts v d ∧ d.Exact) :
    ∃ ds, st.DepictsItems vs ds ∧ ∀ d ∈ ds, d.Exact := by
  induction vs with
  | nil => exact ⟨[], .nil, fun d hd => absurd hd List.not_mem_nil⟩
  | cons v vs ih =>
    obtain ⟨hfirst, hrest⟩ := List.forall_mem_cons.mp h
    obtain ⟨d, hd, hexact⟩ := hfirst
    obtain ⟨ds, hds, hall⟩ := ih hrest
    exact ⟨d :: ds, .cons hd hds, List.forall_mem_cons.mpr ⟨hexact, hall⟩⟩

theorem exists_depictsEntries {es : List (Value × Value)} (hk : ∀ e ∈ es, AdmittedScalar e.1)
    (h : ∀ v ∈ es.map Prod.snd, ∃ d, st.Depicts v d ∧ d.Exact) :
    ∃ ms, st.DepictsEntries es ms ∧ ∀ m ∈ ms, Json.Stable m.1 ∧ m.2.Exact := by
  induction es with
  | nil => exact ⟨[], .nil, fun m hm => absurd hm List.not_mem_nil⟩
  | cons e es ih =>
    obtain ⟨hkey, hkeys⟩ := List.forall_mem_cons.mp hk
    obtain ⟨hfirst, hrest⟩ := List.forall_mem_cons.mp h
    obtain ⟨name, hname, hstable⟩ := exists_keyImage hkey
    obtain ⟨d, hd, hexact⟩ := hfirst
    obtain ⟨ms, hms, hall⟩ := ih hkeys hrest
    exact ⟨(name, d) :: ms, .cons hname hd hms, List.forall_mem_cons.mpr ⟨⟨hstable, hexact⟩, hall⟩⟩

theorem exists_depicts (hacc : Acc (fun w v => st.Holds v w) v)
    (h : ∀ w, ReflTransGen st.Holds v w → st.Admitted w) : ∃ d, st.Depicts v d ∧ d.Exact := by
  induction hacc with
  | intro v _ ih =>
    have hv := h v .refl
    have hparts : ∀ w, st.Holds v w → ∃ d, st.Depicts w d ∧ d.Exact := fun w hw =>
      ih w hw fun u hu => h u (.head hw hu)
    have hscalar : AdmittedScalar v → ∃ d, st.Depicts v d ∧ d.Exact := fun hs => by
      obtain ⟨d, hd, hexact⟩ := exists_scalarImage hs
      exact ⟨d, .scalar hd, hexact⟩
    cases v with
    | ref r =>
      unfold Admitted at hv
      cases hc : st.content r with
      | closed => simp only [hc] at hv
      | items vs =>
        obtain ⟨ds, hds, hexact⟩ := exists_depictsItems fun w hw =>
          hparts w (by rw [holds_ref_iff, hc]; exact hw)
        exact ⟨.arr ds, .items hc hds, .arr hexact⟩
      | entries es =>
        simp only [hc] at hv
        obtain ⟨ms, hms, hexact⟩ := exists_depictsEntries hv fun w hw =>
          hparts w (by rw [holds_ref_iff, hc]; exact hw)
        exact ⟨.obj ms, .entries hc hms,
          .obj (fun m hm => (hexact m hm).1) fun m hm => (hexact m hm).2⟩
    | null | bool | int | float | str | octets | stage | combinator => exact hscalar hv

/-! ### stores in which each node holds earlier ones -/

def Descending (st : Store) : Prop := ∀ r r', st.Holds (.ref r) (.ref r') → r' < r

/-- One more than the place of a node; a scalar has none. -/
def rank : Value → Nat
  | .ref r => r + 1
  | _ => 0

theorem Descending.rank_lt (h : st.Descending) {w : Value} (hw : st.Holds v w) :
    rank w < rank v := by
  cases v with
  | ref r =>
    cases w with
    | ref r' => exact Nat.succ_lt_succ (h r r' hw)
    | null | bool | int | float | str | octets | stage | combinator => exact Nat.succ_pos r
  | null | bool | int | float | str | octets | stage | combinator =>
    exact absurd hw List.not_mem_nil

theorem Descending.acyclic (h : st.Descending) (v : Value) : st.Acyclic v := by
  have hlt : ∀ w u, TransGen st.Holds w u → rank u < rank w := by
    intro w u hu
    induction hu with
    | single hu => exact h.rank_lt hu
    | tail _ hu ih => exact Nat.lt_trans (h.rank_lt hu) ih
  exact fun w _ hw => Nat.lt_irrefl _ (hlt w w hw)

/-- What can be reached stays in a list of values that has all parts of its values. -/
theorem mem_of_reflTransGen {parts : Value → List Value} (vs : List Value)
    (h : ∀ w ∈ vs, ∀ u ∈ parts w, u ∈ vs) (hv : v ∈ vs) {w : Value}
    (hw : ReflTransGen (fun v w => w ∈ parts v) v w) : w ∈ vs := by
  induction hw with
  | refl => exact hv
  | tail _ hu ih => exact h _ ih _ hu

/-! ### reading back -/

/-- What a value is to be read back as: its document with the members of one name put together. -/
def Image (st : Store) (v : Value) (d : Json) : Prop := ∃ raw, st.Depicts v raw ∧ raw.merged = d

/-- **A value is read back as its image**, and it has one image only. -/
theorem toJson_image (hacyclic : st.Acyclic v)
    (hadmitted : ∀ w, ReflTransGen st.Holds v w → st.Admitted w) :
    ∃ d t, st.Image v d ∧ (∀ d', st.Image v d' → d' = d) ∧ st.toJson v = .ok t ∧
      Json.ofText t = .ok d := by
  obtain ⟨raw, hraw, hexact⟩ := exists_depicts hacyclic.acc hadmitted
  refine ⟨raw.merged, raw.render, ⟨raw, hraw, rfl⟩, ?_, hraw.toJson, hexact.ofText_render⟩
  rintro d' ⟨raw', hraw', rfl⟩
  rw [hraw'.unique hraw]

/-- An object that has one list twice, and a table with two keys of one name. -/
def sharing : Store :=
  { nodes := #[
      .list [.int (-7), .null],
      .table [(.int 1, .ref 0), (.str "1", .bool true)],
      .record .plain (.own [("_first", .ref 1), ("second", .ref 0)])] }

theorem descending_sharing : sharing.Descending := by
  intro r r' h
  match r with
  | 0 => simp [Holds, parts, content, node, sharing, Content.parts] at h
  | 1 =>
    have hr : r' = 0 := by simpa [Holds, parts, content, node, sharing, Content.parts] using h
    rw [hr]
    decide
  | 2 =>
    have hr : r' = 1 ∨ r' = 0 := by
      simpa [Holds, parts, content, node, sharing, Content.parts, entries] using h
    rcases hr with rfl | rfl <;> decide
  | n + 3 =>
    unfold Holds at h
    rw [parts_eq_nil_of_size_le (Nat.le_add_left 3 n)] at h
    exact absurd h List.not_mem_nil

theorem admitted_sharing {w : Value} (hw : ReflTransGen sharing.Holds (.ref 2) w) :
    sharing.Admitted w := by
  have hmem := mem_of_reflTransGen [.ref 2, .ref 1, .ref 0, .bool true, .int (-7), .null]
    (by decide) (by decide) hw
  simp only [List.mem_cons, List.not_mem_nil, or_false] at hmem
  rcases hmem with rfl | rfl | rfl | rfl | rfl | rfl
  · exact List.forall_mem_cons.mpr ⟨Json.surrogateFree_ofString _,
      List.forall_mem_singleton.mpr (Json.surrogateFree_ofString _)⟩
  · exact List.forall_mem_cons.mpr ⟨fitsDigits_of_lt_ten (by decide),
      List.forall_mem_singleton.mpr (Json.surrogateFree_ofString _)⟩
  · trivial
  · trivial
  · exact fitsDigits_of_lt_ten (by decide)
  · trivial

theorem toJson_image_sharing : ∃ d t, sharing.Image (.ref 2) d ∧
    (∀ d', sharing.Image (.ref 2) d' → d' = d) ∧ sharing.toJson (.ref 2) = .ok t ∧
    Json.ofText t = .ok d :=
  toJson_image (descending_sharing.acyclic _) fun _ hw => admitted_sharing hw

end SelectorForge.Store
