import SelectorForge.Proofs.Json.Grammar

/-!
# Strings of a document

The reader takes the pieces of a string literal as the grammar spells them, and the pieces that the
writer makes of a text are joined to the same text again, unless the text has a high surrogate and a
low one after it (`Stable`). Texts in which no surrogate stands as such spell no other ones.
-/

namespace SelectorForge.Json

open CodePoint

/-! ### reading -/

theorem exists_of_map_eq_ok {ε α β : Type} {x : Except ε α} {f : α → β} {b : β}
    (h : x.map f = .ok b) : ∃ a, x = .ok a ∧ f a = b := by
  cases x with
  | error e => cases h
  | ok a => exact ⟨a, rfl, Except.ok.inj h⟩

theorem readPieces_sound {opening t rest : Text} {ps : List Piece}
    (h : readPieces opening t = .ok (ps, rest)) :
    ∃ s, SpellsPieces s ps ∧ t = s ++ quotationMark :: rest := by
  fun_induction readPieces opening t generalizing ps with
  | case1 => cases h
  | case2 =>
    cases h
    exact ⟨[], .nil, rfl⟩
  | case3 => cases h
  | case4 => cases h
  | case5 => cases h
  | case6 d₁ d₂ d₃ d₄ next tail u hu _ _ ih =>
    obtain ⟨⟨qs, r⟩, hq, h⟩ := exists_of_map_eq_ok h
    cases h
    obtain ⟨s, hs, ht⟩ := ih hq
    exact ⟨_, .cons (.unit hu) hs, by rw [ht]; rfl⟩
  | case7 => cases h
  | case8 => cases h
  | case9 letter t _ u hu _ _ ih =>
    obtain ⟨⟨qs, r⟩, hq, h⟩ := exists_of_map_eq_ok h
    cases h
    obtain ⟨s, hs, rfl⟩ := ih hq
    exact ⟨_, .cons (.short hu) hs, rfl⟩
  | case10 c t hquote hcontrol hslash ih =>
    obtain ⟨⟨qs, r⟩, hq, h⟩ := exists_of_map_eq_ok h
    cases h
    obtain ⟨s, hs, rfl⟩ := ih hq
    exact ⟨_, .cons (.plain (Nat.lt_of_not_le hcontrol) hquote hslash) hs, rfl⟩

theorem readPieces_plain {c : CodePoint} (hc : 0x1f < c.val) (hq : c ≠ quotationMark)
    (hb : c ≠ backslash) (opening t : Text) :
    readPieces opening (c :: t)
      = (readPieces opening t).map fun (ps, r) => (⟨c, false⟩ :: ps, r) := by
  rw [readPieces.eq_def]
  simp only [if_neg hq, if_neg (Nat.not_le.mpr hc), if_neg hb]

theorem readPieces_short {letter c : CodePoint} (h : unescape? letter = some c)
    (opening t : Text) :
    readPieces opening (backslash :: letter :: t)
      = (readPieces opening t).map fun (ps, r) => (⟨c, false⟩ :: ps, r) := by
  have hu : letter ≠ CodePoint.ofChar 'u' := by
    rintro rfl
    cases h
  rw [readPieces.eq_def]
  simp only [if_neg (show ¬ backslash = quotationMark by decide),
    if_neg (show ¬ backslash.val ≤ 0x1f by decide), if_true, if_neg hu, h]

/-- Something has to follow a unit. -/
theorem readPieces_unit {d₁ d₂ d₃ d₄ c : CodePoint} (h : unit? d₁ d₂ d₃ d₄ = some c)
    (opening : Text) {t : Text} (ht : t ≠ []) :
    readPieces opening (backslash :: CodePoint.ofChar 'u' :: d₁ :: d₂ :: d₃ :: d₄ :: t)
      = (readPieces opening t).map fun (ps, r) => (⟨c, true⟩ :: ps, r) := by
  cases t with
  | nil => exact absurd rfl ht
  | cons next tail =>
    rw [readPieces.eq_def]
    simp only [if_neg (show ¬ backslash = quotationMark by decide),
      if_neg (show ¬ backslash.val ≤ 0x1f by decide), if_true, h]

theorem readPieces_append {s : Text} {ps : List Piece} (hs : SpellsPieces s ps)
    (opening rest : Text) : readPieces opening (s ++ quotationMark :: rest) = .ok (ps, rest) := by
  induction hs with
  | nil =>
    rw [List.nil_append, readPieces.eq_def]
    rfl
  | @cons s t p ps hp _ ih =>
    rw [List.append_assoc]
    cases hp with
    | plain hc hq hb =>
      rw [List.singleton_append, readPieces_plain hc hq hb, ih]
      rfl
    | short h =>
      rw [List.cons_append, List.singleton_append, readPieces_short h, ih]
      rfl
    | unit h =>
      have hne : t ++ quotationMark :: rest ≠ [] := by simp
      simp only [List.cons_append, List.nil_append]
      rw [readPieces_unit h opening hne, ih]
      rfl

/-- A string literal, after its opening quotation mark. -/
theorem readString_sound {t text rest : Text} (h : readString t = .ok (text, rest)) :
    ∃ s, SpellsString (quotationMark :: s) text ∧ t = s ++ rest := by
  obtain ⟨⟨ps, r⟩, hps, h⟩ := exists_of_map_eq_ok h
  cases h
  obtain ⟨s, hs, rfl⟩ := readPieces_sound hps
  exact ⟨s ++ [quotationMark], .mk hs, by rw [List.append_assoc]; rfl⟩

theorem SpellsString.exists_readString {s text : Text} (h : SpellsString s text) :
    ∃ t, s = quotationMark :: t ∧ ∀ rest, readString (t ++ rest) = .ok (text, rest) := by
  cases h with
  | mk h =>
    refine ⟨_, rfl, fun rest => ?_⟩
    rw [List.append_assoc, readString, List.singleton_append, readPieces_append h]
    rfl

/-! ### writing -/

def highCodePoint (c : CodePoint) : CodePoint :=
  ⟨highUnit c, by unfold highUnit; omega⟩

def lowCodePoint (c : CodePoint) : CodePoint :=
  ⟨lowUnit c, by unfold lowUnit; omega⟩

theorem highCodePoint_val (c : CodePoint) : (highCodePoint c).val = highUnit c := rfl

theorem lowCodePoint_val (c : CodePoint) : (lowCodePoint c).val = lowUnit c := rfl

/-- The pieces of a code point as it is written. -/
def piecesOf (c : CodePoint) : List Piece :=
  if (shortEscape? c).isSome ∨ (0x20 ≤ c.val ∧ c.val ≤ 0x7e) then [⟨c, false⟩]
  else if c.val < 0x10000 then [⟨c, true⟩]
  else [⟨highCodePoint c, true⟩, ⟨lowCodePoint c, true⟩]

def pieces (t : Text) : List Piece := t.flatMap piecesOf

theorem unit?_hexDigit {n : Nat} (hn : n < 0x110000) (hunit : n < 0x10000) :
    unit? (hexDigit (n / 16 / 16 / 16)) (hexDigit (n / 16 / 16)) (hexDigit (n / 16)) (hexDigit n)
      = some ⟨n, hn⟩ := by
  have hvalue : ((n / 16 / 16 / 16 % 16 * 16 + n / 16 / 16 % 16) * 16 + n / 16 % 16) * 16 + n % 16
      = n := by omega
  simp only [unit?, hexValue?_hexDigit, Option.bind_eq_bind, Option.bind_some, hvalue]
  rw [dif_pos hn]

theorem spellsPiece_unitEscape {n : Nat} (hn : n < 0x110000) (hunit : n < 0x10000) :
    SpellsPiece (unitEscape n) ⟨⟨n, hn⟩, true⟩ := .unit (unit?_hexDigit hn hunit)

theorem unescape?_of_shortEscape? {c letter : CodePoint} (h : shortEscape? c = some letter) :
    unescape? letter = some c := by
  unfold shortEscape? at h
  repeat' split at h
  all_goals cases h
  all_goals
    rename_i hc
    rw [hc]
    rfl

theorem spellsPieces_singleton {s : Text} {p : Piece} (h : SpellsPiece s p) :
    SpellsPieces s [p] := by
  have hs := SpellsPieces.cons h .nil
  rw [List.append_nil] at hs
  exact hs

theorem spellsPieces_append {s t : Text} {ps qs : List Piece} (hs : SpellsPieces s ps)
    (ht : SpellsPieces t qs) : SpellsPieces (s ++ t) (ps ++ qs) := by
  induction hs with
  | nil => exact ht
  | cons h _ ih =>
    rw [List.append_assoc]
    exact .cons h ih

theorem spellsPieces_literalCodePoint (c : CodePoint) :
    SpellsPieces (literalCodePoint c) (piecesOf c) := by
  unfold literalCodePoint piecesOf
  cases hs : shortEscape? c with
  | some letter => exact spellsPieces_singleton (.short (unescape?_of_shortEscape? hs))
  | none =>
    by_cases hp : 0x20 ≤ c.val ∧ c.val ≤ 0x7e
    · have hq : c ≠ quotationMark := by
        rintro rfl
        cases hs
      have hb : c ≠ backslash := by
        rintro rfl
        cases hs
      simp only [if_pos hp, if_pos (Or.inr hp)]
      exact spellsPieces_singleton (.plain hp.1 hq hb)
    · have hn : ¬ ((none : Option CodePoint).isSome = true ∨ 0x20 ≤ c.val ∧ c.val ≤ 0x7e) := by
        simpa using hp
      simp only [if_neg hp, if_neg hn]
      by_cases hl : c.val < 0x10000
      · simp only [if_pos hl]
        exact spellsPieces_singleton (spellsPiece_unitEscape c.isLt hl)
      · simp only [if_neg hl]
        refine .cons (spellsPiece_unitEscape _ ?_) (spellsPieces_singleton
          (spellsPiece_unitEscape _ ?_))
        · unfold highUnit
          omega
        · unfold lowUnit
          omega

theorem spellsPieces_flatMap (t : Text) :
    SpellsPieces (t.flatMap literalCodePoint) (pieces t) := by
  induction t with
  | nil => exact .nil
  | cons c t ih =>
    rw [pieces, List.flatMap_cons, List.flatMap_cons]
    exact spellsPieces_append (spellsPieces_literalCodePoint c) ih

/-! ### joining -/

/-- Whether two pieces are joined. -/
def joins (p q : Piece) : Bool :=
  p.escaped && q.escaped && p.codePoint.isHighSurrogate && q.codePoint.isLowSurrogate

/-- No high surrogate has a low one after it. -/
def Stable : Text → Prop
  | [] => True
  | c :: t =>
    (∀ d ∈ t.head?, c.isHighSurrogate = true → d.isLowSurrogate = false) ∧ Stable t

theorem joinPieces_cons {p : Piece} {ps : List Piece} (h : ∀ q ∈ ps.head?, joins p q = false) :
    joinPieces (p :: ps) = p.codePoint :: joinPieces ps := by
  cases ps with
  | nil => rfl
  | cons q ps => rw [joinPieces, ← joins, h q rfl, if_neg Bool.false_ne_true]

theorem joinPieces_joined {p q : Piece} (h : joins p q = true) (ps : List Piece) :
    joinPieces (p :: q :: ps) = joinUnits p.codePoint q.codePoint :: joinPieces ps := by
  rw [joinPieces, ← joins, h, if_pos rfl]

theorem isHighSurrogate_highCodePoint {c : CodePoint} (hc : 0x10000 ≤ c.val) :
    (highCodePoint c).isHighSurrogate = true := by
  have hlt := c.isLt
  refine decide_eq_true ?_
  show 0xd800 ≤ highUnit c ∧ highUnit c ≤ 0xdbff
  unfold highUnit
  omega

theorem isLowSurrogate_lowCodePoint (c : CodePoint) : (lowCodePoint c).isLowSurrogate = true := by
  refine decide_eq_true ?_
  show 0xdc00 ≤ lowUnit c ∧ lowUnit c ≤ 0xdfff
  unfold lowUnit
  omega

theorem isLowSurrogate_of_isHighSurrogate {c : CodePoint} (h : c.isHighSurrogate = true) :
    c.isLowSurrogate = false := by
  simp only [isHighSurrogate, isLowSurrogate, decide_eq_true_eq, decide_eq_false_iff_not] at h ⊢
  omega

/-- What a text begins with when it is written: its first code point, or a high surrogate. -/
theorem head?_pieces {d : CodePoint} {t : Text} {q : Piece} (hq : q ∈ (pieces (d :: t)).head?) :
    q.codePoint = d ∨ q.codePoint.isHighSurrogate = true := by
  rw [pieces, List.flatMap_cons] at hq
  unfold piecesOf at hq
  split at hq
  · cases hq
    exact Or.inl rfl
  · split at hq
    · cases hq
      exact Or.inl rfl
    · next hl =>
      cases hq
      exact Or.inr (isHighSurrogate_highCodePoint (Nat.le_of_not_lt hl))

theorem joinPieces_piecesOf {c : CodePoint} {ps : List Piece}
    (h : ∀ q ∈ ps.head?, c.isHighSurrogate = true → q.codePoint.isLowSurrogate = false) :
    joinPieces (piecesOf c ++ ps) = c :: joinPieces ps := by
  have hone : ∀ escaped, joinPieces (⟨c, escaped⟩ :: ps) = c :: joinPieces ps := by
    intro escaped
    refine joinPieces_cons fun q hq => ?_
    cases hh : c.isHighSurrogate with
    | false => simp [joins, hh]
    | true => simp [joins, h q hq hh]
  unfold piecesOf
  split
  · exact hone false
  · split
    · exact hone true
    · next hl =>
      have hc := Nat.le_of_not_lt hl
      have hjoins : joins ⟨highCodePoint c, true⟩ ⟨lowCodePoint c, true⟩ = true := by
        simp [joins, isHighSurrogate_highCodePoint hc, isLowSurrogate_lowCodePoint]
      rw [List.cons_append, List.cons_append, List.nil_append, joinPieces_joined hjoins,
        joinUnits_units hc (highCodePoint_val c) (lowCodePoint_val c)]

/-- **A stable text is joined as it was written.** -/
theorem joinPieces_pieces {t : Text} (ht : Stable t) : joinPieces (pieces t) = t := by
  induction t with
  | nil => rfl
  | cons c t ih =>
    obtain ⟨hc, ht⟩ := ht
    have hnext : ∀ q ∈ (pieces t).head?, c.isHighSurrogate = true →
        q.codePoint.isLowSurrogate = false := by
      intro q hq hh
      cases t with
      | nil => cases hq
      | cons d t =>
        rcases head?_pieces hq with hd | hd
        · rw [hd]
          exact hc d rfl hh
        · exact isLowSurrogate_of_isHighSurrogate hd
    rw [pieces, List.flatMap_cons, ← pieces, joinPieces_piecesOf hnext, ih ht]

/-- What a text is read as after it has been written. -/
def rejoined (t : Text) : Text := joinPieces (pieces t)

theorem spellsString_rejoined (t : Text) : SpellsString (literal t) (rejoined t) :=
  .mk (spellsPieces_flatMap t)

theorem spellsString_literal {t : Text} (ht : Stable t) : SpellsString (literal t) t := by
  have h := spellsString_rejoined t
  rwa [rejoined, joinPieces_pieces ht] at h

def SurrogateFree (t : Text) : Prop := ∀ c ∈ t, c.isSurrogate = false

theorem surrogateFree_append {s t : Text} :
    SurrogateFree (s ++ t) ↔ SurrogateFree s ∧ SurrogateFree t := by
  simp only [SurrogateFree, List.mem_append]
  constructor
  · intro h
    exact ⟨fun c hc => h c (Or.inl hc), fun c hc => h c (Or.inr hc)⟩
  · rintro ⟨hs, ht⟩ c (hc | hc)
    · exact hs c hc
    · exact ht c hc

theorem surrogateFree_of_cons {c : CodePoint} {t : Text} (h : SurrogateFree (c :: t)) :
    SurrogateFree t := fun d hd => h d (List.mem_cons_of_mem c hd)

theorem isSurrogate_ofChar (c : Char) : (ofChar c).isSurrogate = false := by
  have h := c.valid
  simp only [UInt32.isValidChar, Nat.isValidChar] at h
  refine decide_eq_false ?_
  rw [ofChar_val]
  show ¬ (0xd800 ≤ c.val.toNat ∧ c.val.toNat ≤ 0xdfff)
  omega

theorem surrogateFree_map_ofChar (cs : List Char) : SurrogateFree (cs.map ofChar) := by
  intro c hc
  obtain ⟨d, _, rfl⟩ := List.mem_map.mp hc
  exact isSurrogate_ofChar d

theorem surrogateFree_ofString (s : String) : SurrogateFree (Text.ofString s) :=
  surrogateFree_map_ofChar s.toList

theorem stable_of_surrogateFree {t : Text} (h : SurrogateFree t) : Stable t := by
  induction t with
  | nil => trivial
  | cons c t ih =>
    refine ⟨fun d _ hc => ?_, ih fun d hd => h d (List.mem_cons_of_mem c hd)⟩
    have hcs := h c List.mem_cons_self
    rw [isSurrogate_eq, hc] at hcs
    cases hcs

theorem stable_ofString (s : String) : Stable (Text.ofString s) :=
  stable_of_surrogateFree (surrogateFree_ofString s)

/-! ### what is spelled without surrogates -/

/-- Only units spell surrogates. -/
def Tame (ps : List Piece) : Prop := ∀ p ∈ ps, p.escaped = false → p.codePoint.isSurrogate = false

theorem Tame.escaped {ps : List Piece} (h : Tame ps) {p : Piece} (hp : p ∈ ps)
    (hs : p.codePoint.isSurrogate = true) : p.escaped = true := by
  cases he : p.escaped with
  | true => rfl
  | false =>
    rw [h p hp he] at hs
    cases hs

theorem isSurrogate_of_unescape? {letter c : CodePoint} (h : unescape? letter = some c) :
    c.isSurrogate = false := by
  unfold unescape? at h
  repeat' split at h
  all_goals cases h
  all_goals rfl

theorem SpellsPieces.tame {s : Text} {ps : List Piece} (h : SpellsPieces s ps)
    (hs : SurrogateFree s) : Tame ps := by
  induction h with
  | nil =>
    intro p hp
    cases hp
  | @cons s t p ps hp _ ih =>
    have ht := ih (surrogateFree_append.mp hs).2
    intro q hq he
    rcases List.mem_cons.mp hq with rfl | hq
    · cases hp with
      | plain => exact hs _ (List.mem_append_left t List.mem_cons_self)
      | short h => exact isSurrogate_of_unescape? h
      | unit => cases he
    · exact ht q hq he

theorem joinUnits_val {high low : CodePoint} (hh : high.isHighSurrogate = true)
    (hl : low.isLowSurrogate = true) : 0x10000 ≤ (joinUnits high low).val := by
  have hh := of_decide_eq_true hh
  have hl := of_decide_eq_true hl
  have hn : 0x10000 + (high.val - 0xd800) * 0x400 + (low.val - 0xdc00) < 0x110000 := by omega
  simp only [joinUnits, hn, dite_true]
  omega

/-- What pieces are joined to begins with the first of them or with no surrogate. -/
theorem head?_joinPieces {q : Piece} {ps : List Piece} {d : CodePoint}
    (hd : d ∈ (joinPieces (q :: ps)).head?) : d = q.codePoint ∨ 0x10000 ≤ d.val := by
  cases ps with
  | nil =>
    cases hd
    exact Or.inl rfl
  | cons r ps =>
    cases hj : joins q r with
    | true =>
      rw [joinPieces_joined hj] at hd
      simp only [joins, Bool.and_eq_true] at hj
      refine Or.inr ?_
      rw [← Option.some.inj hd]
      exact joinUnits_val hj.1.2 hj.2
    | false =>
      rw [joinPieces, ← joins, hj, if_neg Bool.false_ne_true] at hd
      cases hd
      exact Or.inl rfl

theorem stable_cons {c : CodePoint} {t : Text} (hc : 0x10000 ≤ c.val) (ht : Stable t) :
    Stable (c :: t) := by
  refine ⟨fun d _ hh => ?_, ht⟩
  have hh := of_decide_eq_true hh
  omega

/-- A unit is joined to the next one where this would be taken for its second half otherwise. -/
theorem stable_joinPieces {ps : List Piece} (h : Tame ps) : Stable (joinPieces ps) := by
  fun_induction joinPieces ps with
  | case1 => trivial
  | case2 p => exact ⟨fun _ hd => (Option.not_mem_none _ hd).elim, trivial⟩
  | case3 p q rest hj ih =>
    simp only [Bool.and_eq_true] at hj
    refine stable_cons (joinUnits_val hj.1.2 hj.2) (ih fun r hr => h r ?_)
    exact List.mem_cons_of_mem p (List.mem_cons_of_mem q hr)
  | case4 p q rest hj ih =>
    refine ⟨fun d hd hh => ?_, ih fun r hr => h r (List.mem_cons_of_mem p hr)⟩
    rcases head?_joinPieces hd with rfl | hd
    · cases hl : q.codePoint.isLowSurrogate with
      | false => rfl
      | true =>
        have hep := h.escaped List.mem_cons_self (by rw [isSurrogate_eq, hh]; rfl)
        have heq := h.escaped (List.mem_cons_of_mem p List.mem_cons_self)
          (by rw [isSurrogate_eq, hl, Bool.or_true])
        exact absurd (by simp [hep, heq, hh, hl]) hj
    · refine decide_eq_false ?_
      omega

theorem SpellsString.stable {s t : Text} (h : SpellsString s t) (hs : SurrogateFree s) :
    Stable t := by
  cases h with
  | mk h =>
    refine stable_joinPieces (h.tame fun c hc => hs c ?_)
    exact List.mem_cons_of_mem _ (List.mem_append_left _ hc)

end SelectorForge.Json
