import SelectorForge.Proofs.Session.Association
import SelectorForge.Proofs.Store.ValueObjects

/-!
# Revived objects in place of their originals

A value object and what it has been revived as cannot be told apart by what they answer. They are
equal and have equal attributes. Combinations have the same text, alone and wherever the one takes
the place of the other as an operand, since an operand counts by its text only. Rectangles have the
same area, and both objects refuse changes if their kind is frozen.

* `Store.Follows`           two effects with matching outcomes;
* `Tree.Exchange`           trees with one operand in the place of another;
* `Tree.Exchange.run`       they have the same text if the operands have;
* `Store.StandsFor`         an object in the place of another one;
* `revive_standsFor`        a revived object in the place of its original;
* `Maker.Pads.exists_standsFor`   the same for operands that have just been joined.
-/

namespace SelectorForge

open Effect Session

/-! ### the same operand twice -/

section operands

variable {α β : Type} {w : World} {l l' r r' : Value} {combinator : Text}

theorem run_query_bind_congr {ask : Store → Except Fault α} {f f' : α → Effect β}
    (h : ∀ a, (f a).run w = (f' a).run w) :
    (query ask >>= f).run w = (query ask >>= f').run w := by
  rw [run_bind, run_bind, run_query]
  cases ask w.store with
  | error e => rfl
  | ok a => exact h a

/-- An operand counts by its text only. -/
theorem combinationOf_congr (hl : w.store.renderValue l = w.store.renderValue l')
    (hr : w.store.renderValue r = w.store.renderValue r') (pad : Value) :
    (combinationOf l combinator r pad).run w = (combinationOf l' combinator r' pad).run w := by
  unfold combinationOf textOf
  rw [run_bind, run_bind, run_query, run_query, hl]
  cases w.store.renderValue l' with
  | error e => rfl
  | ok tl =>
    simp only
    rw [run_bind, run_bind, run_query, run_query, hr]

theorem combine_congr (hl : w.store.renderValue l = w.store.renderValue l')
    (hr : w.store.renderValue r = w.store.renderValue r') (b : Value) :
    (combine b l combinator r).run w = (combine b l' combinator r').run w := by
  unfold combine
  cases b with
  | ref b =>
    refine run_query_bind_congr fun n => ?_
    split
    · refine run_query_bind_congr fun _ => run_query_bind_congr fun _ =>
        run_query_bind_congr fun pad => ?_
      rw [run_bind, run_bind, combinationOf_congr hl hr]
    · rfl
  | null | bool | int | float | str | octets | stage | combinator => rfl

theorem Maker.make_congr (hl : w.store.renderValue l = w.store.renderValue l')
    (hr : w.store.renderValue r = w.store.renderValue r') (maker : Maker) :
    (maker.make l combinator r).run w = (maker.make l' combinator r').run w := by
  cases maker with
  | combination pad => exact combinationOf_congr hl hr _
  | builder b => exact combine_congr hl hr b

theorem Maker.make_later {st : Store} (hw : Store.Later st w.store) (maker : Maker) :
    Store.Later st ((maker.make l combinator r).run w).2.store := by
  cases maker with
  | combination pad =>
    exact ((Policy.upkeep st).combinationOf_obeys hw trivial trivial trivial combinator w.notes).1
  | builder b =>
    exact ((Policy.upkeep st).combine_obeys hw trivial trivial trivial combinator w.notes).1

end operands

/-! ### trees -/

/-- Values that have the same text, or none for the same reason, in a store and in every later
one. -/
def Store.SameText (st : Store) (v v' : Value) : Prop :=
  ∀ st₁, Later st st₁ → st₁.renderValue v = st₁.renderValue v'

/-- Two outcomes in one world: the same failure, or values with the same text. -/
inductive Store.Matches (st : Store) :
    Except Fault Value × World → Except Fault Value × World → Prop
  | fails (f : Fault) (w : World) : Matches st (.error f, w) (.error f, w)
  | answers {v v' : Value} {w : World} (hw : Later st w.store) (h : st.SameText v v') :
    Matches st (.ok v, w) (.ok v', w)

/-- Two effects that lead to matching outcomes in every later store. -/
def Store.Follows (st : Store) (e e' : Effect Value) : Prop :=
  ∀ w, Later st w.store → st.Matches (e.run w) (e'.run w)

/-- Trees with one value in the place of another one, at some of the leaves that have it. -/
inductive Tree.Exchange (x y : Value) : Tree → Tree → Prop
  | same (v : Value) : Exchange x y (.leaf v) (.leaf v)
  | leaf : Exchange x y (.leaf x) (.leaf y)
  | node (maker : Maker) (combinator : CombinatorInput) {left left' right right' : Tree}
    (hleft : Exchange x y left left') (hright : Exchange x y right right') :
    Exchange x y (.node maker left combinator right) (.node maker left' combinator right')

section trees

variable {st : Store} {e e' : Effect Value} {x y l l' r r' : Value} {tree tree' : Tree}

theorem Store.Follows.bind {f f' : Value → Effect Value} (h : st.Follows e e')
    (hf : ∀ v v', st.SameText v v' → st.Follows (f v) (f' v')) :
    st.Follows (e >>= f) (e' >>= f') := by
  intro w hw
  have hmatches := h w hw
  rw [run_bind, run_bind]
  generalize e.run w = o at hmatches
  generalize e'.run w = o' at hmatches
  cases hmatches with
  | fails f w => exact .fails f w
  | answers hw htext => exact hf _ _ htext _ hw

theorem Maker.make_follows (hl : st.SameText l l') (hr : st.SameText r r') (maker : Maker)
    (combinator : Text) :
    st.Follows (maker.make l combinator r) (maker.make l' combinator r') := by
  intro w hw
  rw [make_congr (hl _ hw) (hr _ hw)]
  have hlater : Store.Later st ((maker.make l' combinator r').run w).2.store :=
    make_later hw maker
  rcases hrun : (maker.make l' combinator r').run w with ⟨f | v, w'⟩
  · exact .fails f w'
  · rw [hrun] at hlater
    exact .answers hlater fun _ _ => rfl

theorem Tree.Exchange.build (h : Exchange x y tree tree') (htext : st.SameText x y) :
    st.Follows tree.build tree'.build := by
  induction h with
  | same v => exact fun _ hw => .answers hw fun _ _ => rfl
  | leaf => exact fun _ hw => .answers hw htext
  | node maker combinator _ _ ihleft ihright =>
    refine ihleft.bind fun l l' hl => ihright.bind fun r r' hr => ?_
    exact maker.make_follows hl hr combinator.asText

/-- **What is made of operands with the same text has the same text**, in the same world, or it is
not made for the same reason. -/
theorem Tree.Exchange.run (h : Exchange x y tree tree') (htext : st.SameText x y) {w : World}
    (hw : Store.Later st w.store) :
    (tree.build >>= textOf).run w = (tree'.build >>= textOf).run w := by
  have hmatches := h.build htext w hw
  rw [run_bind, run_bind]
  generalize tree.build.run w = o at hmatches
  generalize tree'.build.run w = o' at hmatches
  cases hmatches with
  | fails => rfl
  | @answers v v' w hw htext =>
    show (textOf v).run w = (textOf v').run w
    unfold textOf
    rw [run_query, run_query, htext _ hw]

end trees

/-! ### one object in the place of another -/

namespace Store

/-- Two objects of one kind cannot be told apart by what they answer. -/
structure StandsFor (st : Store) (kind : Kind) (x y : Value) : Prop where
  same : st.Same x y
  attributes : st.SameAttributes x y
  text : kind = .combination → ∃ t, ∀ st₁, Later st st₁ →
    st₁.renderValue x = .ok (.str t) ∧ st₁.renderValue y = .ok (.str t)
  operand : kind = .combination → ∀ tree tree', Tree.Exchange x y tree tree' → ∀ w : World,
    Later st w.store → (tree.build >>= textOf).run w = (tree'.build >>= textOf).run w
  area : kind = .rectangle → st.Again (fun st => st.area x) (fun st => st.area y)
  refuses : kind.isFrozen = true → ∀ st₁, Later st st₁ → ∀ v ∈ [x, y], ∀ name,
    (∀ value, st₁.setAttribute v name value = .error (.frozenAssign name)) ∧
      st₁.deleteAttribute v name = .error (.frozenDelete name)

variable {st st₁ : Store} {kind : Kind} {r r' : Ref} {x : Value} {attributes : Attributes}
  {fields' : Fields Value} {ms : List (Text × Json)}

theorem Later.node_of_isFrozen (h : Later st st₁) (hn : st.node r = .record kind attributes)
    (hkind : kind.isFrozen = true) : st₁.node r = .record kind attributes :=
  h.node_eq hn hkind (lt_size_of_node_ne (by rw [hn]; exact Node.noConfusion))

theorem Later.isFrozen (h : Later st st₁) (hn : st.node r = .record kind attributes)
    (hkind : kind.isFrozen = true) : st₁.isFrozen (.ref r) = true := by
  simp only [Store.isFrozen, h.node_of_isFrozen hn hkind, hkind]

/-- The text of a combination does not change, and the revived one has it, too. -/
theorem Successor.text (h : st.Successor .combination x r' fields' ms) :
    ∃ t, ∀ st₁, Later st st₁ → st₁.renderValue x = .ok (.str t) ∧
      st₁.renderValue (.ref r') = .ok (.str t) := by
  obtain ⟨original, hn', hfields'⟩ := h
  cases original with
  | @combination _ left combinator right tl tc tr pad hn hleft hcombinator hright =>
    obtain rfl : fields' = [(Name.left, .str tl), (Name.combinator, .str tc),
        (Name.right, .str tr), (Name.pad, .bool pad)] := by
      cases hfields' with | cons hl hrest =>
      cases hrest with | cons hc hrest =>
      cases hrest with | cons hr hrest =>
      cases hrest with | cons hp hrest =>
      cases hl
      cases hc
      cases hr
      cases hp
      cases hrest
      rfl
    refine ⟨Combination.render ⟨tl, tc, tr, pad⟩, fun st₁ hlater => ⟨?_, ?_⟩⟩
    · exact renderValue_of_texts (hlater.node_of_isFrozen hn rfl) hleft.1 hcombinator.1 hright.1
    · exact renderValue_of_texts (hlater.node_of_isFrozen hn' rfl) rfl rfl rfl

theorem Successor.refuses (h : st.Successor kind x r' fields' ms) (hkind : kind.isFrozen = true)
    (hlater : Later st st₁) {v : Value} (hv : v ∈ [x, .ref r']) (name : Text) :
    (∀ value, st₁.setAttribute v name value = .error (.frozenAssign name)) ∧
      st₁.deleteAttribute v name = .error (.frozenDelete name) := by
  obtain ⟨r, _, _, rfl, hd⟩ := h.original.displayed
  have hfrozen : st₁.isFrozen v = true := by
    simp only [List.mem_cons, List.not_mem_nil, or_false] at hv
    rcases hv with rfl | rfl
    · exact hlater.isFrozen hd.node hkind
    · exact hlater.isFrozen h.node hkind
  exact ⟨st₁.setAttribute_of_isFrozen hfrozen name, st₁.deleteAttribute_of_isFrozen hfrozen name⟩

theorem Successor.standsFor (h : st.Successor kind x r' fields' ms) :
    st.StandsFor kind x (.ref r') where
  same := h.same
  attributes := h.sameAttributes
  text := by
    rintro rfl
    exact h.text
  operand := by
    rintro rfl tree tree' hexchange w hw
    obtain ⟨t, ht⟩ := h.text
    have htext : st.SameText x (.ref r') := fun st₁ h₁ => (ht st₁ h₁).1.trans (ht st₁ h₁).2.symm
    exact hexchange.run htext hw
  area := by
    rintro rfl
    exact h.area
  refuses hkind _ hlater _ hv name := h.refuses hkind hlater hv name

/-- **Value objects survive being encoded and revived**, by their kind or by an object of it. What
stood in the store stays as it is, the object that is the template included. The revived object is a
new one, it is equal to the original, and it answers as the original does. -/
theorem ValueObject.revive_standsFor (h : st.ValueObject kind x ms) {template : Template}
    (htemplate : st.NamesKind kind template) :
    ∃ t r' st', st.toJson x = .ok t ∧ st.revive template t = .ok (.ref r', st') ∧
      st.size ≤ r' ∧ Extends st st' ∧ st'.StandsFor kind x (.ref r') := by
  obtain ⟨t, r', fields', st', hjson, hrevive, hsize, he, hs⟩ := h.revive htemplate
  exact ⟨t, r', st', hjson, hrevive, hsize, he, hs.standsFor⟩

/-- A rectangle whose attributes stand in a table, one of them a list, and two combinations. -/
def keepsakes : Store :=
  { nodes := #[
      .list [.int (-7), .null, .str "\x22"],
      .table [(.str Name.width, .int 3), (.str Name.height, .str "ab"), (.str "tags", .ref 0)],
      .record .rectangle (.shared 1),
      .record .combination (.own [(Name.left, .str "a"), (Name.combinator, .combinator .child),
        (Name.right, .str "b"), (Name.pad, .bool false)]),
      .record .combination (.own [(Name.left, .str "c"), (Name.combinator, .str "~"),
        (Name.right, .str "d"), (Name.pad, .bool true)])] }

theorem valueObject_keepsakes_combination : keepsakes.ValueObject .combination (.ref 3)
    [(Name.left, .str "a"), (Name.combinator, .str ">"), (Name.right, .str "b"),
      (Name.pad, .bool false)] :=
  .combination rfl ⟨rfl, Json.stable_ofString _⟩ ⟨rfl, stable_combinator .child⟩
    ⟨rfl, Json.stable_ofString _⟩

def keptItems : List Json := [.int (-7), .null, .str "\x22"]

def keptMembers : List (Text × Json) :=
  [(Name.width, .int 3), (Name.height, .str "ab"), ("tags", .arr keptItems)]

theorem valueObject_keepsakes_rectangle :
    keepsakes.ValueObject .rectangle (.ref 2) keptMembers := by
  have hitems : ∀ d ∈ keptItems, d.Exact ∧ d.Distinct := by
    refine List.forall_mem_cons.mpr ⟨?_, List.forall_mem_cons.mpr ⟨⟨.null, .null⟩, ?_⟩⟩
    · exact ⟨.int (fitsDigits_of_lt_ten (by decide)), .int (-7)⟩
    · exact List.forall_mem_singleton.mpr ⟨.str (Json.stable_ofString _), .str _⟩
  have hkept : ∀ m ∈ keptMembers, Kept m := by
    refine List.forall_mem_cons.mpr ⟨?_, List.forall_mem_cons.mpr ⟨?_, ?_⟩⟩
    · exact ⟨Json.stable_ofString "width", .int (fitsDigits_of_lt_ten (by decide)), .int 3⟩
    · exact ⟨Json.stable_ofString "height", .str (Json.stable_ofString "ab"), .str "ab"⟩
    · exact List.forall_mem_singleton.mpr ⟨Json.stable_ofString "tags",
        .arr fun d hd => (hitems d hd).1, .arr fun d hd => (hitems d hd).2⟩
  have hfields : LoadedMembers keepsakes
      [(Name.width, .int 3), (Name.height, .str "ab"), ("tags", .ref 0)] keptMembers :=
    .cons (.int 3) (.cons (.str "ab") (.cons
      (.arr rfl (.cons (.int (-7)) (.cons .null (.cons (.str "\x22") .nil)))) .nil))
  exact .rectangle rfl rfl hfields (exact_of_kept hkept) (distinct_of_kept (by decide) hkept)
    (by decide) (by decide)

theorem revive_standsFor_keepsakes :
    (∃ t r' st', keepsakes.toJson (.ref 3) = .ok t ∧
      keepsakes.revive (keepsakes.templateOf (.ref 4)) t = .ok (.ref r', st') ∧
      st'.StandsFor .combination (.ref 3) (.ref r') ∧
      st'.renderValue (.ref r') = .ok (.str "a>b")) ∧
    ∃ t r' st', keepsakes.toJson (.ref 2) = .ok t ∧
      keepsakes.revive (.record .rectangle) t = .ok (.ref r', st') ∧
      st'.StandsFor .rectangle (.ref 2) (.ref r') := by
  constructor
  · obtain ⟨t, r', st', hjson, hrevive, -, he, hs⟩ :=
      valueObject_keepsakes_combination.revive_standsFor (.object (r := 4) rfl)
    refine ⟨t, r', st', hjson, hrevive, hs, ?_⟩
    obtain ⟨u, hu⟩ := hs.text rfl
    obtain ⟨hx, hy⟩ := hu st' (.refl st')
    have htext := renderValue_of_texts (he.node_eq_of_ne (r := 3) rfl Node.noConfusion) rfl rfl rfl
    rw [hy, ← hx, htext]
    rfl
  · obtain ⟨t, r', st', hjson, hrevive, -, -, hs⟩ :=
      valueObject_keepsakes_rectangle.revive_standsFor .kind
    exact ⟨t, r', st', hjson, hrevive, hs⟩

end Store

/-! ### what has just been made -/

section making

variable {maker : Maker} {pad : Bool} {w : World} {l r : Value} {tl tr combinator : Text}

/-- Joined operands are a value object, if their texts are read back as they are. -/
theorem Maker.Pads.valueObject (hmaker : maker.Pads w.store pad)
    (hl : w.store.renderValue l = .ok (.str tl)) (hr : w.store.renderValue r = .ok (.str tr))
    (htl : Json.Stable tl) (htr : Json.Stable tr) (hc : Json.Stable combinator) :
    ∃ v w', (maker.make l combinator r).run w = (.ok v, w') ∧ w'.store.ValueObject .combination v
      [(Name.left, .str tl), (Name.combinator, .str combinator), (Name.right, .str tr),
        (Name.pad, .bool pad)] := by
  obtain ⟨notes, hrun⟩ := hmaker.run hl hr combinator
  exact ⟨_, _, hrun, .combination (w.store.node_alloc_self _) ⟨rfl, htl⟩ ⟨rfl, hc⟩ ⟨rfl, htr⟩⟩

/-- **What is joined can be saved.** A combination of two operands, made by itself or by a builder,
can be revived as soon as it is made, and what it is revived as stands for it. -/
theorem Maker.Pads.exists_standsFor (hmaker : maker.Pads w.store pad)
    (hl : w.store.renderValue l = .ok (.str tl)) (hr : w.store.renderValue r = .ok (.str tr))
    (htl : Json.Stable tl) (htr : Json.Stable tr) (hc : Json.Stable combinator) :
    ∃ v w', (maker.make l combinator r).run w = (.ok v, w') ∧
      ∀ template, w'.store.NamesKind .combination template →
        ∃ t r' st', w'.store.toJson v = .ok t ∧
          w'.store.revive template t = .ok (.ref r', st') ∧
          st'.StandsFor .combination v (.ref r') := by
  obtain ⟨v, w', hrun, hv⟩ := hmaker.valueObject hl hr htl htr hc
  refine ⟨v, w', hrun, fun template htemplate => ?_⟩
  obtain ⟨t, r', _, st', hjson, hrevive, -, -, hs⟩ := hv.revive htemplate
  exact ⟨t, r', st', hjson, hrevive, hs.standsFor⟩

end making

end SelectorForge
