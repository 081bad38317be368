import SelectorForge.Proofs.Store.Same
import SelectorForge.Store.Product

/-!
# Areas

What has been decoded twice is multiplied to the same product: numbers are the same numbers, texts
and lists are repeated as often. A product that cannot be made fails for the same reason. So two
rectangles with the same members have the same area, although each area may be a new list:

* `Store.Again`          a calculation answers later what another one has answered before;
* `Sequence.Like`        sequences with the same items;
* `Store.product_again`  the product of values that are decoded twice;
* `Store.area_again`     the area of a rectangle.
-/

namespace SelectorForge.Store

variable {st st' : Store} {v v' c c' : Value}

/-! ### calculations that are made again -/

/-- A calculation answers the same as another one before it, or it fails in the same way, at any
time afterwards. -/
inductive Again (st : Store) (before later : Store → Except Fault (Value × Store)) : Prop
  | fails {f : Fault} (hbefore : before st = .error f)
    (hlater : ∀ st₁, Extends st st₁ → later st₁ = .error f)
  | answers {v : Value} {st₁ : Store} (hbefore : before st = .ok (v, st₁)) (he : Extends st st₁)
    (hlater : ∀ st₂, Extends st₁ st₂ → ∃ v' st₃, later st₂ = .ok (v', st₃) ∧ Extends st₂ st₃ ∧
      st₃.Same v v')

theorem Again.congr {before later before' later' : Store → Except Fault (Value × Store)}
    (h : st.Again before later) (hbefore : before' st = before st)
    (hlater : ∀ st₁, Extends st st₁ → later' st₁ = later st₁) : st.Again before' later' := by
  cases h with
  | fails hb hl => exact .fails (hbefore.trans hb) fun st₁ he => (hlater st₁ he).trans (hl st₁ he)
  | answers hb he hl =>
    refine .answers (hbefore.trans hb) he fun st₂ he₂ => ?_
    rw [hlater st₂ (he.trans he₂)]
    exact hl st₂ he₂

/-- A number is the same at any time. -/
theorem again_int (n : Int) :
    st.Again (fun st => .ok (.int n, st)) (fun st => .ok (.int n, st)) := by
  refine .answers rfl (.refl st) fun st₂ _ => ⟨_, st₂, rfl, .refl st₂, ?_⟩
  have hself : st₂.equal (.int n) (.int n) = .ok true :=
    equalBy_self (fun _ => Value.noConfusion) (fun _ => Value.noConfusion)
  exact ⟨hself, hself⟩

theorem again_text (t : Text) :
    st.Again (fun st => .ok (.str t, st)) (fun st => .ok (.str t, st)) :=
  .answers rfl (.refl st) fun st₂ _ => ⟨_, st₂, rfl, .refl st₂, same_of_text rfl rfl⟩

/-! ### what is told of a decoded value -/

theorem Loaded.typeName_eq {d : Json} (h : Loaded st v d) : st.typeName v = d.kindName := by
  cases h with
  | null | bool | int | float | str => rfl
  | arr hn | obj hn =>
    show (st.node _).typeName = _
    rw [hn]
    rfl

theorem Duplicate.typeName_eq (h : st.Duplicate v v') (he : Extends st st') :
    st'.typeName v' = st.typeName v := by
  obtain ⟨d, hv, hv', -⟩ := h
  rw [hv.typeName_eq, (hv'.extend he).typeName_eq]

theorem Duplicate.asInt?_eq (h : st.Duplicate v v') : asInt? v' = asInt? v := by
  obtain ⟨d, hv, hv', -⟩ := h
  cases hv <;> cases hv' <;> rfl

theorem Duplicate.ne_float (h : st.Duplicate v v') (x : Double) : v ≠ .float x := by
  obtain ⟨d, hv, -, he, -⟩ := h
  rintro rfl
  cases hv
  cases he

/-! ### sequences -/

/-- Texts that are equal, and lists whose items are decoded from the same documents. -/
inductive Sequence.Like (st : Store) : Sequence → Sequence → Prop
  | text (t : Text) : Like st (.text t) (.text t)
  | list {vs vs' : List Value} {ds : List Json} (hvs : LoadedItems st vs ds)
    (hvs' : LoadedItems st vs' ds) (he : ∀ d ∈ ds, d.Exact) (hd : ∀ d ∈ ds, d.Distinct) :
    Like st (.list vs) (.list vs')

theorem LoadedItems.append {vs ws : List Value} {ds es : List Json} (h : LoadedItems st vs ds)
    (h' : LoadedItems st ws es) : LoadedItems st (vs ++ ws) (ds ++ es) := by
  induction vs generalizing ds with
  | nil =>
    cases h
    exact h'
  | cons v vs ih =>
    cases h with
    | cons hv hvs => exact .cons hv (ih hvs)

theorem LoadedItems.replicate {vs : List Value} {ds : List Json} (h : LoadedItems st vs ds)
    (n : Nat) : LoadedItems st (List.replicate n vs).flatten (List.replicate n ds).flatten := by
  induction n with
  | zero => exact .nil
  | succ n ih =>
    rw [List.replicate_succ, List.replicate_succ]
    exact h.append ih

theorem mem_of_mem_replicate_flatten {α : Type} {n : Nat} {as : List α} {a : α}
    (h : a ∈ (List.replicate n as).flatten) : a ∈ as := by
  obtain ⟨bs, hbs, ha⟩ := List.mem_flatten.mp h
  rwa [List.eq_of_mem_replicate hbs] at ha

theorem Sequence.Like.length_eq {s s' : Sequence} (h : s.Like st s') : s'.length = s.length := by
  cases h with
  | text => rfl
  | list hvs hvs' => exact (hvs.forall₂ hvs').length_eq.symm

/-- A new list of repeated items, and the same once more. -/
theorem again_replicate {vs vs' : List Value} {ds : List Json} (hvs : LoadedItems st vs ds)
    (hvs' : LoadedItems st vs' ds) (he : ∀ d ∈ ds, d.Exact) (hd : ∀ d ∈ ds, d.Distinct) (n : Nat) :
    st.Again (fun st => .ok (st.alloc (.list (List.replicate n vs).flatten)))
      (fun st => .ok (st.alloc (.list (List.replicate n vs').flatten))) := by
  have halloc := extends_alloc st (.list (List.replicate n vs).flatten)
  refine .answers rfl halloc fun st₂ he₂ => ?_
  have halloc' := extends_alloc st₂ (.list (List.replicate n vs').flatten)
  have hgrown := halloc.trans (he₂.trans halloc')
  refine ⟨_, _, rfl, halloc', Duplicate.same ⟨.arr (List.replicate n ds).flatten, ?_, ?_, ?_, ?_⟩⟩
  · have hn := (he₂.trans halloc').node_eq_of_ne (st.node_alloc_self _) Node.noConfusion
    exact .arr hn ((hvs.replicate n).extend hgrown)
  · exact .arr (st₂.node_alloc_self _) ((hvs'.replicate n).extend hgrown)
  · exact .arr fun d hmem => he d (mem_of_mem_replicate_flatten hmem)
  · exact .arr fun d hmem => hd d (mem_of_mem_replicate_flatten hmem)

/-- How often a sequence can be repeated depends on its length only. -/
theorem repeated_again {s s' : Sequence} (h : s.Like st s') (count : Int) :
    st.Again (fun st => s.repeated st count) (fun st => s'.repeated st count) := by
  have hlength := h.length_eq
  by_cases hcount : (Sequence.indexBound : Int) ≤ count ∨ count < -(Sequence.indexBound : Int)
  · exact .fails (if_pos hcount) fun _ _ => if_pos hcount
  by_cases hindex : Sequence.indexBound
      ≤ s.length * (if s.length = 0 then 0 else count.toNat)
  · have hindex' := hindex
    rw [← hlength] at hindex'
    cases h <;> exact .fails ((if_neg hcount).trans (if_pos hindex))
      fun _ _ => (if_neg hcount).trans (if_pos hindex')
  by_cases hbound : Sequence.lengthBound
      ≤ s.length * (if s.length = 0 then 0 else count.toNat)
  · have hindex' := hindex
    have hbound' := hbound
    rw [← hlength] at hindex' hbound'
    exact .fails ((if_neg hcount).trans ((if_neg hindex).trans (if_pos hbound)))
      fun _ _ => (if_neg hcount).trans ((if_neg hindex').trans (if_pos hbound'))
  · have hmade : ∀ st, s.repeated st count = _ := fun st =>
      (if_neg hcount).trans ((if_neg hindex).trans (if_neg hbound))
    rw [← hlength] at hindex hbound
    have hmade' : ∀ st, s'.repeated st count = _ := fun st =>
      (if_neg hcount).trans ((if_neg hindex).trans (if_neg hbound))
    cases h with
    | text t => exact (again_text _).congr (hmade st) fun st₁ _ => hmade' st₁
    | list hvs hvs' he hd =>
      refine (again_replicate hvs hvs' he hd _).congr (hmade st) fun st₁ _ => ?_
      rw [← hlength]
      exact hmade' st₁

/-! ### products -/

/-- Decoded values are sequences together, at any time. -/
theorem Duplicate.asSequence? (h : st.Duplicate v v') :
    (st.asSequence? v = none ∧ ∀ st₁, Extends st st₁ → st₁.asSequence? v' = none) ∨
    ∃ s s', st.asSequence? v = some s ∧ s.Like st s' ∧
      ∀ st₁, Extends st st₁ → st₁.asSequence? v' = some s' := by
  obtain ⟨d, hv, hv', he, hd⟩ := h
  cases hv with
  | null | bool | int | float =>
    cases hv'
    exact .inl ⟨rfl, fun _ _ => rfl⟩
  | str t =>
    cases hv'
    exact .inr ⟨_, _, rfl, .text t, fun _ _ => rfl⟩
  | @arr r vs ds hn hvs =>
    cases hv' with | @arr r' vs' _ hn' hvs' =>
    cases he with | arr he =>
    cases hd with | arr hd =>
    refine .inr ⟨.list vs, .list vs', ?_, .list hvs hvs' he hd, fun st₁ hext => ?_⟩
    · simp only [Store.asSequence?, hn]
    · simp only [Store.asSequence?, hext.node_eq_of_ne hn' Node.noConfusion]
  | obj hn =>
    cases hv' with | obj hn' =>
    refine .inl ⟨?_, fun st₁ hext => ?_⟩
    · simp only [Store.asSequence?, hn]
    · simp only [Store.asSequence?, hext.node_eq_of_ne hn' Node.noConfusion]

theorem repeatBy_again {s s' : Sequence} (h : s.Like st s') (hc : st.Duplicate c c') :
    st.Again (fun st => st.repeatBy s c) (fun st => st.repeatBy s' c') := by
  cases hn : asInt? c with
  | none =>
    have hn' := hc.asInt?_eq.trans hn
    refine .fails (f := .cannotRepeat (st.typeName c)) ?_ fun st₁ he => ?_
    · simp only [repeatBy, hn]
    · simp only [repeatBy, hn', hc.typeName_eq he]
  | some n =>
    have hn' := hc.asInt?_eq.trans hn
    refine (repeated_again h n).congr ?_ fun st₁ _ => ?_
    · simp only [repeatBy, hn]
    · simp only [repeatBy, hn']

/-- Values that are no numbers in floating point have a product of numbers only if both are
integers. -/
theorem numberProduct?_eq {a b : Value} (ha : ∀ x, a ≠ .float x) (hb : ∀ x, b ≠ .float x) :
    numberProduct? a b = match asInt? a, asInt? b with
      | some m, some n => some (.ok (.int (m * n)))
      | _, _ => none := by
  have hdouble : ∀ {v : Value}, (∀ x, v ≠ .float x) → asInt? v = none → asDouble? v = none := by
    intro v hv hn
    cases v with
    | float x => exact absurd rfl (hv x)
    | null | str | octets | combinator | ref => rfl
    | bool | int | stage => cases hn
  unfold numberProduct?
  cases hm : asInt? a with
  | none => simp only [hdouble ha hm]
  | some m =>
    cases hn : asInt? b with
    | none =>
      simp only [hdouble hb hn]
      cases asDouble? a <;> rfl
    | some n => rfl

/-- **The product of what has been decoded twice.** -/
theorem product_again {a a' b b' : Value} (ha : st.Duplicate a a') (hb : st.Duplicate b b') :
    st.Again (fun st => st.product a b) (fun st => st.product a' b') := by
  have hnumbers := numberProduct?_eq ha.ne_float hb.ne_float
  have hnumbers' := numberProduct?_eq ha.symm.ne_float hb.symm.ne_float
  rw [ha.asInt?_eq, hb.asInt?_eq, ← hnumbers] at hnumbers'
  cases hproduct : numberProduct? a b with
  | some p =>
    rw [hproduct] at hnumbers hnumbers'
    obtain ⟨n, rfl⟩ : ∃ n, p = .ok (.int n) := by
      split at hnumbers
      · exact ⟨_, Option.some.inj hnumbers⟩
      · cases hnumbers
    refine (again_int n).congr ?_ fun st₁ _ => ?_
    · simp only [product, hproduct, Except.map]
    · simp only [product, hnumbers', Except.map]
  | none =>
    rw [hproduct] at hnumbers'
    rcases ha.asSequence? with ⟨hs, hs'⟩ | ⟨s, s', hs, hlike, hs'⟩
    · rcases hb.asSequence? with ⟨ht, ht'⟩ | ⟨t, t', ht, hlike, ht'⟩
      · refine .fails (f := .cannotMultiply (st.typeName a) (st.typeName b)) ?_ fun st₁ he => ?_
        · simp only [product, hproduct, hs, ht]
        · simp only [product, hnumbers', hs' st₁ he, ht' st₁ he, ha.typeName_eq he,
            hb.typeName_eq he]
      · refine (repeatBy_again hlike ha).congr ?_ fun st₁ he => ?_
        · simp only [product, hproduct, hs, ht]
        · simp only [product, hnumbers', hs' st₁ he, ht' st₁ he]
    · refine (repeatBy_again hlike hb).congr ?_ fun st₁ he => ?_
      · simp only [product, hproduct, hs]
      · simp only [product, hnumbers', hs' st₁ he]

/-! ### areas -/

/-- **The area of a rectangle** is that of another one which has been decoded from the same members.
The attributes of the other one are its own, those of the first may stand in a table. -/
theorem area_again {r r' : Ref} {attributes : Attributes} {fields : Fields Value}
    {ms : List (Text × Json)} (hn : st.node r = .record .rectangle attributes)
    (hn' : st.node r' = .record .rectangle (.own fields))
    (h : LoadedMembers st (st.fields attributes) ms) (h' : LoadedMembers st fields ms)
    (he : (Json.obj ms).Exact) (hd : (Json.obj ms).Distinct)
    (hwidth : Name.width ∈ Fields.names ms) (hheight : Name.height ∈ Fields.names ms) :
    st.Again (fun st => st.area (.ref r)) (fun st => st.area (.ref r')) := by
  have hget := get?_forall₂ (h.duplicates h' he hd)
  rw [← h.names_eq] at hwidth hheight
  obtain ⟨w, w', hw, hw', hwide⟩ := (hget Name.width).resolve_left fun hnone => hnone.1 hwidth
  obtain ⟨t, t', ht, ht', htall⟩ := (hget Name.height).resolve_left fun hnone => hnone.1 hheight
  have hlater : ∀ {st₁}, Extends st st₁ → st₁.node r' = .record .rectangle (.own fields) :=
    fun hext => hext.node_eq_of_ne hn' Node.noConfusion
  -- an attribute can stand in the place of the calculation
  rcases hget Name.area with ⟨-, hnone, hnone'⟩ | ⟨v, v', hv, hv', hsame⟩
  · refine (product_again hwide htall).congr ?_ fun st₁ hext => ?_
    · simp only [area, hn, checkCallable, hnone, recordAttribute, hw, ht, bind, Except.bind]
    · simp only [area, hlater hext, fields_own, checkCallable, hnone', recordAttribute, hw', ht',
        bind, Except.bind]
  · refine .fails (f := .notCallable (st.typeName v)) ?_ fun st₁ hext => ?_
    · simp only [area, hn, checkCallable, hv, bind, Except.bind]
    · simp only [area, hlater hext, fields_own, checkCallable, hv', bind, Except.bind,
        hsame.typeName_eq hext]

end SelectorForge.Store
