import SelectorForge.Proofs.Session.Alone
import SelectorForge.Proofs.Session.Steady
import SelectorForge.Proofs.Text.Folding

/-!
# Combinations of combinations

Combinations can be operands again, so operands are joined in the shape of a tree. The text at the
root has the texts of the leaves from left to right, and between two of them what the link there puts
between them. So the shape does not show: only what stands in a row counts.

* `Link.Puts`              what a link puts between two texts, padded or not;
* `Series.Spells`          texts in a row, with links between them, and the text of the row;
* `Series.Like`            rows that differ only in blanks which do not show;
* `Tree.build`             the combination of a tree, made from the leaves to the root;
* `Tree.Reads`             the row of a tree;
* `Tree.text_of_series`    the text of the combination is the text of the row.
-/

namespace SelectorForge

open CodePoint (space)
open Effect Session

/-! ### links -/

/-- How two texts are joined. -/
structure Link where
  pad : Bool
  combinator : Text

/-- A padded link puts a space on both sides of the combinator as it is. Another one puts the
combinator without the blanks around it, or one space if nothing is left. -/
inductive Link.Puts : Link → Text → Prop
  | padded (combinator : Text) : Puts ⟨true, combinator⟩ (space :: combinator ++ [space])
  | tight {combinator core : Text} (h : Text.Strips combinator core) (hne : core ≠ []) :
    Puts ⟨false, combinator⟩ core
  | blank {combinator : Text} (h : Text.Strips combinator []) : Puts ⟨false, combinator⟩ [space]

/-- Links that put the same between texts: equal ones, and two that are not padded and whose
combinators differ in the blanks around them. -/
inductive Link.Like : Link → Link → Prop
  | same (l : Link) : Like l l
  | tight {c d core : Text} (hc : Text.Strips c core) (hd : Text.Strips d core) :
    Like ⟨false, c⟩ ⟨false, d⟩

namespace Link

variable {l l' : Link} {t : Text}

def token (l : Link) : Text := Combination.token l.pad l.combinator

theorem puts_token (l : Link) : l.Puts l.token := by
  obtain ⟨pad, combinator⟩ := l
  cases pad with
  | true => exact .padded combinator
  | false =>
    have hstrips := Text.strips_trim combinator
    show Puts _ (Combination.tightToken combinator)
    unfold Combination.tightToken
    split
    · next hnil =>
      rw [hnil] at hstrips
      exact .blank hstrips
    · next hne => exact .tight hstrips hne

theorem Puts.eq_token (h : l.Puts t) : t = l.token := by
  cases h with
  | padded combinator => rfl
  | tight h hne =>
    show _ = Combination.tightToken _
    rw [Combination.tightToken, h.trim_eq, if_neg hne]
  | blank h =>
    show _ = Combination.tightToken _
    rw [Combination.tightToken, h.trim_eq, if_pos rfl]

theorem Puts.like (h : l.Puts t) (hlike : l.Like l') : l'.Puts t := by
  cases hlike with
  | same => exact h
  | @tight c d core hc hd =>
    have htoken : ∀ {combinator}, Text.Strips combinator core →
        (Link.mk false combinator).token = if core = [] then [space] else core := by
      intro combinator hstrips
      show Combination.tightToken combinator = _
      rw [Combination.tightToken, hstrips.trim_eq]
    rw [h.eq_token, htoken hc, ← htoken hd]
    exact puts_token _

/-- Between its operands a link never puts nothing. -/
theorem Puts.ne_nil (h : l.Puts t) : t ≠ [] := by
  rw [h.eq_token]
  exact Combination.token_ne_nil l.pad l.combinator

end Link

/-! ### texts in a row -/

/-- A text, and the others with the links in front of them. -/
structure Series where
  first : Text
  rest : List (Link × Text)

namespace Series

/-- The text of a row. -/
inductive Spells : Series → Text → Prop
  | last (t : Text) : Spells ⟨t, []⟩ t
  | more {a b t token : Text} {l : Link} {rest : List (Link × Text)} (hl : l.Puts token)
    (h : Spells ⟨b, rest⟩ t) : Spells ⟨a, (l, b) :: rest⟩ (a ++ (token ++ t))

/-- Two rows, one after the other. -/
def join (s : Series) (l : Link) (s' : Series) : Series :=
  ⟨s.first, s.rest ++ (l, s'.first) :: s'.rest⟩

def links (s : Series) : List Link := s.rest.map Prod.fst

/-- The same texts, with links between them that put the same. -/
def Like (s s' : Series) : Prop :=
  s.first = s'.first ∧ List.Forall₂ (fun e e' => e.1.Like e'.1 ∧ e.2 = e'.2) s.rest s'.rest

variable {s s' : Series} {t t' : Text}

/-- A row has a text. -/
theorem exists_spells (s : Series) : ∃ t, s.Spells t := by
  obtain ⟨first, rest⟩ := s
  induction rest generalizing first with
  | nil => exact ⟨first, .last first⟩
  | cons e rest ih =>
    obtain ⟨t, h⟩ := ih e.2
    exact ⟨_, .more e.1.puts_token h⟩

/-- It has no other one. -/
theorem Spells.unique (h : s.Spells t) (h' : s.Spells t') : t = t' := by
  induction h generalizing t' with
  | last t =>
    cases h'
    rfl
  | more hl _ ih =>
    cases h' with
    | more hl' hs' => rw [hl.eq_token, hl'.eq_token, ih hs']

theorem Spells.join {l : Link} {token : Text} (h : s.Spells t) (hl : l.Puts token)
    (h' : s'.Spells t') : (s.join l s').Spells (t ++ (token ++ t')) := by
  induction h with
  | last t => exact .more hl h'
  | @more a b t _ _ _ hfirst _ ih =>
    rw [List.append_assoc, List.append_assoc]
    exact .more hfirst ih

theorem Spells.like (h : s.Spells t) (hlike : s.Like s') : s'.Spells t := by
  induction h generalizing s' with
  | last t =>
    obtain ⟨first, rest⟩ := s'
    obtain ⟨rfl, hrest⟩ := hlike
    cases hrest
    exact .last t
  | more hl _ ih =>
    obtain ⟨first, rest⟩ := s'
    obtain ⟨rfl, hrest⟩ := hlike
    cases hrest with
    | @cons _ e _ rest' he hrest =>
      obtain ⟨link, text⟩ := e
      obtain ⟨hlink, rfl⟩ := he
      exact .more (hl.like hlink) (ih ⟨rfl, hrest⟩)

end Series

/-! ### trees -/

/-- By what two operands are joined: by the combination itself, which is told whether to pad, or by
a builder. -/
inductive Maker
  | combination (pad : Bool)
  | builder (b : Value)

/-- Operands that are joined two by two. -/
inductive Tree
  | leaf (v : Value)
  | node (maker : Maker) (left : Tree) (combinator : CombinatorInput) (right : Tree)

def Maker.make (left : Value) (combinator : Text) (right : Value) : Maker → Effect Value
  | .combination pad => combinationOf left combinator right (.bool pad)
  | .builder b => combine b left combinator right

/-- The combination of a tree. The operands are made before they are joined. -/
def Tree.build : Tree → Effect Value
  | .leaf v => pure v
  | .node maker left combinator right => do
    let l ← left.build
    let r ← right.build
    maker.make l combinator.asText r

/-- Whether what is joined is padded: a builder pads as its configuration says. -/
inductive Maker.Pads (st : Store) : Maker → Bool → Prop
  | combination (pad : Bool) : Pads st (.combination pad) pad
  | builder {b : Ref} {attributes : Attributes} {config : Value} {pad : Bool}
    (hn : st.node b = .record .builder attributes)
    (hcallable : st.checkCallable (st.fields attributes) Name.combine = .ok ())
    (hconfig : Store.recordAttribute .builder (st.fields attributes) Name.config = .ok config)
    (hpad : st.lookup config Name.pad = .ok (.bool pad)) : Pads st (.builder (.ref b)) pad

/-- The texts of the leaves in order, and between them the links of the nodes. -/
inductive Tree.Reads (st : Store) : Tree → Series → Prop
  | leaf {v : Value} {t : Text} (h : st.renderValue v = .ok (.str t)) : Reads st (.leaf v) ⟨t, []⟩
  | node {maker : Maker} {left right : Tree} {combinator : CombinatorInput} {pad : Bool}
    {s s' : Series} (hmaker : maker.Pads st pad) (hleft : Reads st left s)
    (hright : Reads st right s') :
    Reads st (.node maker left combinator right) (s.join ⟨pad, combinator.asText⟩ s')

/-! ### making one -/

theorem Maker.Pads.widen {st st' : Store} (hst : st.Closed) (h : st.Widens st') {maker : Maker}
    {pad : Bool} (hmaker : maker.Pads st pad) : maker.Pads st' pad := by
  cases hmaker with
  | combination => exact .combination pad
  | builder hn hcallable hconfig hpad =>
    have hfields := hst.inside_fields hn
    have hsame := h.fields (hst.inside_attributes hn)
    have hinside := inside_recordAttribute hfields hconfig
    have hn' := h.node_eq_of_ne hn Node.noConfusion
    rw [← h.checkCallable hfields, ← hsame] at hcallable
    rw [← hsame] at hconfig
    rw [← h.lookup hst hinside] at hpad
    exact .builder hn' hcallable hconfig hpad

theorem Tree.Reads.widen {st st' : Store} (hst : st.Closed) (h : st.Widens st') {tree : Tree}
    {s : Series} (hreads : tree.Reads st s) : tree.Reads st' s := by
  induction hreads with
  | leaf ht => exact .leaf (h.renderValue hst ht)
  | node hmaker _ _ ihleft ihright => exact .node (hmaker.widen hst h) ihleft ihright

section making

variable {w : World} {l r : Value} {tl tr combinator : Text}

theorem run_combinationOf (hl : w.store.renderValue l = .ok (.str tl))
    (hr : w.store.renderValue r = .ok (.str tr)) (pad : Value) :
    (combinationOf l combinator r pad).run w = (.ok (.ref w.store.size),
      { w with store := (w.store.alloc (joined tl combinator tr pad)).2 }) := by
  unfold combinationOf textOf
  rw [run_bind, run_query, hl]
  simp only
  rw [run_bind, run_query, hr]
  rfl

theorem showValue_str (st : Store) (t : Text) : st.showValue (.str t) = .ok t.quoted := by
  unfold Store.showValue Store.displayFuel Store.shown
  rfl

/-- A builder notes what it has joined. -/
theorem run_combine {b : Ref} {attributes : Attributes} {config : Value} {pad : Bool}
    (hn : w.store.node b = .record .builder attributes)
    (hcallable : w.store.checkCallable (w.store.fields attributes) Name.combine = .ok ())
    (hconfig : Store.recordAttribute .builder (w.store.fields attributes) Name.config = .ok config)
    (hpad : w.store.lookup config Name.pad = .ok (.bool pad))
    (hl : w.store.renderValue l = .ok (.str tl)) (hr : w.store.renderValue r = .ok (.str tr)) :
    (combine (.ref b) l combinator r).run w = (.ok (.ref w.store.size),
      ⟨(w.store.alloc (joined tl combinator tr (.bool pad))).2,
        w.notes ++ [Combination.note ⟨tl, combinator, tr, pad⟩]⟩) := by
  have hjoined := isJoined_of_node
    (w.store.node_alloc_self (joined tl combinator tr (.bool pad)))
  have hshown : ∀ {st : Store} {c : Value} {name t : Text}, st.lookup c name = .ok (.str t) →
      (do st.showValue (← st.lookup c name)) = .ok t.quoted := by
    intro st c name t h
    rw [h]
    exact showValue_str st t
  unfold combine checkOperation builderConfig
  simp only [run_bind, run_query, hn, hcallable, hconfig, hpad, run_combinationOf hl hr,
    hshown hjoined.left, hshown hjoined.right, run_note, run_pure]
  rfl

theorem Maker.Pads.run {maker : Maker} {pad : Bool} (hmaker : maker.Pads w.store pad)
    (hl : w.store.renderValue l = .ok (.str tl)) (hr : w.store.renderValue r = .ok (.str tr))
    (combinator : Text) :
    ∃ notes, (maker.make l combinator r).run w = (.ok (.ref w.store.size),
      ⟨(w.store.alloc (joined tl combinator tr (.bool pad))).2, notes⟩) := by
  cases hmaker with
  | combination => exact ⟨w.notes, run_combinationOf hl hr (.bool pad)⟩
  | builder hn hcallable hconfig hpad =>
    exact ⟨_, run_combine hn hcallable hconfig hpad hl hr⟩

end making

/-! ### the text of a tree -/

theorem closed_joined {st : Store} (hst : st.Closed) (left combinator right : Text) (pad : Bool) :
    (st.alloc (joined left combinator right (.bool pad))).2.Closed := by
  apply hst.alloc
  have hscalars : ∀ v ∈ [Value.str left, .str combinator, .str right, .bool pad],
      ∀ r, v ≠ .ref r := by
    simp
  exact fun v hv => Store.inside_scalar (hscalars v hv)

/-- **The combination of a tree has the text of its row.** -/
theorem Tree.Reads.run {tree : Tree} {s : Series} {w : World} (hst : w.store.Closed)
    (h : tree.Reads w.store s) {t : Text} (ht : s.Spells t) :
    ∃ v w', tree.build.run w = (.ok v, w') ∧ w.store.Widens w'.store ∧ w'.store.Closed ∧
      w'.store.renderValue v = .ok (.str t) := by
  induction tree generalizing s w t with
  | leaf v =>
    cases h with
    | leaf hv =>
      cases ht with
      | last t => exact ⟨v, w, rfl, .refl _, hst, hv⟩
  | node maker left combinator right ihleft ihright =>
    cases h with
    | @node _ _ _ _ pad s s' hmaker hleft hright =>
      obtain ⟨tl, htl⟩ := s.exists_spells
      obtain ⟨tr, htr⟩ := s'.exists_spells
      -- the operands are made in stores that only grow, so the left one keeps its text
      obtain ⟨l, w₁, hrunleft, hwiden₁, hst₁, hl⟩ := ihleft hst hleft htl
      obtain ⟨r, w₂, hrunright, hwiden₂, hst₂, hr⟩ := ihright hst₁ (hright.widen hst hwiden₁) htr
      have hl₂ := hwiden₂.renderValue hst₁ hl
      have hmaker₂ := hmaker.widen hst (hwiden₁.trans hwiden₂)
      obtain ⟨notes, hrun⟩ := hmaker₂.run hl₂ hr combinator.asText
      have htext := htl.join (Link.puts_token ⟨pad, combinator.asText⟩) htr
      obtain rfl := ht.unique htext
      let made := (w₂.store.alloc (joined tl combinator.asText tr (.bool pad))).2
      have hwiden : w.store.Widens made :=
        (hwiden₁.trans hwiden₂).trans (Store.widens_alloc _ _)
      refine ⟨.ref w₂.store.size, ⟨made, notes⟩, ?_, hwiden,
        closed_joined hst₂ tl combinator.asText tr pad, ?_⟩
      · unfold Tree.build
        rw [run_bind, hrunleft]
        simp only
        rw [run_bind, hrunright]
        exact hrun
      · rw [renderValue_of_node (w₂.store.node_alloc_self _), ← List.append_assoc]
        rfl

/-- **Only the row of a tree counts.** A tree of values that have texts is combined, and the text of
the combination is that of its row. A tree of any other shape, over any other store, has the same text
if it has the same row, up to blanks around combinators that are not padded. And no link puts nothing
between its operands. -/
theorem Tree.text_of_series {w : World} {tree : Tree} {s : Series} (hst : w.store.Closed)
    (h : tree.Reads w.store s) :
    ∃ t, s.Spells t ∧
      (∃ v w', tree.build.run w = (.ok v, w') ∧ w'.store.renderValue v = .ok (.str t)) ∧
      (∀ {w₂ : World} {tree₂ : Tree} {s₂ : Series}, w₂.store.Closed → tree₂.Reads w₂.store s₂ →
        s.Like s₂ → ∃ v w', tree₂.build.run w₂ = (.ok v, w') ∧
          w'.store.renderValue v = .ok (.str t)) ∧
      ∀ l ∈ s.links, ∀ token, l.Puts token → token ≠ [] := by
  obtain ⟨t, ht⟩ := s.exists_spells
  refine ⟨t, ht, ?_, ?_, fun _ _ _ htoken => htoken.ne_nil⟩
  · obtain ⟨v, w', hrun, -, -, htext⟩ := h.run hst ht
    exact ⟨v, w', hrun, htext⟩
  · intro w₂ tree₂ s₂ hst₂ h₂ hlike
    obtain ⟨v, w', hrun, -, -, htext⟩ := h₂.run hst₂ (ht.like hlike)
    exact ⟨v, w', hrun, htext⟩

/-- The selector and the object of `twoOperands`, the one in front of and behind the other. -/
def toTheRight : Tree :=
  .node (.combination false) (.leaf (.ref 6)) (.text "\x09>\u00a0")
    (.node (.builder (.ref 1)) (.leaf (.ref 10)) (.member .descendant) (.leaf (.ref 6)))

/-- The same row in the other shape, without the blanks that do not show. -/
def toTheLeft : Tree :=
  .node (.builder (.ref 1))
    (.node (.combination false) (.leaf (.ref 6)) (.text ">") (.leaf (.ref 10)))
    (.member .descendant) (.leaf (.ref 6))

theorem Tree.text_of_series_twoOperands :
    let st := (runFrom {} twoOperands).2.store
    let s : Series := ⟨"a", [(⟨false, "\x09>\u00a0"⟩, "b"), (⟨true, " "⟩, "a")]⟩
    let s₂ : Series := ⟨"a", [(⟨false, ">"⟩, "b"), (⟨true, " "⟩, "a")]⟩
    st.Closed ∧ toTheRight.Reads st s ∧ toTheLeft.Reads st s₂ ∧ s.Like s₂ ∧
      (∃ v w', toTheRight.build.run { store := st } = (.ok v, w') ∧
        w'.store.renderValue v = .ok (.str "a>b   a")) ∧
      ∃ v w', toTheLeft.build.run { store := st } = (.ok v, w') ∧
        w'.store.renderValue v = .ok (.str "a>b   a") := by
  intro st s s₂
  have hclosed : st.Closed := by
    have hvalues : ∀ step ∈ twoOperands, step.values = [] := by
      simp [twoOperands, Step.values, Recipe.values]
    have hgrants := bounded_runFrom (s := {}) bounded_initialStore hvalues
    exact hgrants.holds
  have hx : st.renderValue (.ref 6) = .ok (.str "a") := by decide +kernel
  have hy : st.renderValue (.ref 10) = .ok (.str "b") := by decide +kernel
  have hbuilder : Maker.Pads st (.builder (.ref 1)) true := .builder rfl rfl rfl rfl
  have hright : toTheRight.Reads st s :=
    .node (.combination false) (.leaf hx) (.node hbuilder (.leaf hy) (.leaf hx))
  have hleft : toTheLeft.Reads st s₂ :=
    .node hbuilder (.node (.combination false) (.leaf hx) (.leaf hy)) (.leaf hx)
  have hwrapped : Text.Strips "\x09>\u00a0" ">" := Text.strips_iff.mpr (by decide)
  have hbare : Text.Strips ">" ">" := Text.strips_iff.mpr (by decide)
  have hlike : s.Like s₂ :=
    ⟨rfl, .cons ⟨.tight hwrapped hbare, rfl⟩ (.cons ⟨.same _, rfl⟩ .nil)⟩
  have hspells : s.Spells "a>b   a" :=
    .more (.tight hwrapped (by decide)) (.more (.padded " ") (.last "a"))
  obtain ⟨t, ht, hmade, hother, -⟩ := text_of_series (w := { store := st }) hclosed hright
  obtain rfl := ht.unique hspells
  exact ⟨hclosed, hright, hleft, hlike, hmade, hother hclosed hleft hlike⟩

end SelectorForge
