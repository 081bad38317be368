import SelectorForge.Proofs.Json.Grammar

/-!
# Numbers of a document

The reader takes the longest number at the front of a text, and the number is spelled as the grammar
says. What may follow a value in a document ends a number as well (`Delimited`).
-/

namespace SelectorForge.Json

open CodePoint

/-! ### rows of digits -/

theorem digits_nil : Digits [] := by
  intro c hc
  cases hc

theorem digitsOf_append {ds rest : Text} (hd : Digits ds)
    (hr : ∀ c ∈ rest.head?, isDigit c = false) : digitsOf (ds ++ rest) = (ds, rest) := by
  rw [digitsOf, List.takeWhile_append_of_pos hd, List.dropWhile_append_of_pos hd]
  cases rest with
  | nil => rw [List.takeWhile_nil, List.dropWhile_nil, List.append_nil]
  | cons c rest =>
    have hc : ¬ isDigit c = true := by
      rw [hr c rfl]
      exact Bool.false_ne_true
    rw [List.takeWhile_cons_of_neg hc, List.dropWhile_cons_of_neg hc, List.append_nil]

theorem digitsOf_sound {t ds rest : Text} (h : digitsOf t = (ds, rest)) :
    Digits ds ∧ t = ds ++ rest := by
  cases h
  exact ⟨List.all_eq_true.mp List.all_takeWhile, List.takeWhile_append_dropWhile.symm⟩

/-! ### the parts of a number, as they are read -/

theorem readWhole?_sound {t whole rest : Text} (h : readWhole? t = some (whole, rest)) :
    IsWhole whole ∧ t = whole ++ rest := by
  cases t with
  | nil => cases h
  | cons c t =>
    rw [readWhole?] at h
    split at h
    · next hz =>
      cases h
      refine ⟨⟨?_, List.cons_ne_nil _ _, fun _ => by rw [hz]⟩, rfl⟩
      intro d hd
      rw [List.mem_singleton.mp hd, hz]
      rfl
    · next hz =>
      split at h
      · next hc =>
        obtain ⟨hd, ht⟩ := digitsOf_sound (Option.some.inj h)
        have hw : whole = c :: t.takeWhile isDigit := by
          have h₁ : (digitsOf (c :: t)).1 = whole := congrArg Prod.fst (Option.some.inj h)
          rw [← h₁, digitsOf, List.takeWhile_cons_of_pos hc]
        refine ⟨⟨hd, ?_, fun hh => ?_⟩, ht⟩
        · rw [hw]
          exact List.cons_ne_nil _ _
        · rw [hw] at hh
          exact absurd (Option.some.inj hh) hz
      · cases h

theorem readFraction_sound {t fraction rest : Text} (h : readFraction t = (fraction, rest)) :
    Digits fraction ∧ t = fractionText fraction ++ rest := by
  cases t with
  | nil =>
    cases h
    exact ⟨digits_nil, rfl⟩
  | cons c t =>
    rw [readFraction] at h
    split at h
    · next hc =>
      obtain ⟨hd, ht⟩ := digitsOf_sound h
      have hne : fraction ≠ [] := by
        have h₁ : (digitsOf t).1 = fraction := congrArg Prod.fst h
        rw [← h₁]
        exact hc.2
      refine ⟨hd, ?_⟩
      rw [fractionText, if_neg hne, hc.1, ht]
      rfl
    · cases h
      exact ⟨digits_nil, rfl⟩

theorem readSign_sound {t rest : Text} {negative : Bool} (h : readSign t = (negative, rest)) :
    ∃ sign, (sign, negative) ∈ signs ∧ t = sign ++ rest := by
  cases t with
  | nil =>
    cases h
    exact ⟨[], by simp [signs], rfl⟩
  | cons c t =>
    rw [readSign] at h
    split at h
    · next hc =>
      cases h
      exact ⟨[hyphen], by simp [signs], by rw [hc]; rfl⟩
    · split at h
      · next hc =>
        cases h
        exact ⟨[plus], by simp [signs], by rw [hc]; rfl⟩
      · cases h
        exact ⟨[], by simp [signs], rfl⟩

theorem readExponent_sound {t rest : Text} {exponent : Option Int}
    (h : readExponent t = (exponent, rest)) :
    ∃ e, SpellsExponent e exponent ∧ t = e ++ rest := by
  cases t with
  | nil =>
    cases h
    exact ⟨[], .none, rfl⟩
  | cons c t =>
    rw [readExponent] at h
    split at h
    · next hc =>
      cases hs : readSign t with
      | mk negative t₁ =>
        cases hd : digitsOf t₁ with
        | mk ds t₂ =>
          simp only [hs, hd] at h
          split at h
          · cases h
            exact ⟨[], .none, rfl⟩
          · next hne =>
            cases h
            obtain ⟨sign, hsign, rfl⟩ := readSign_sound hs
            obtain ⟨hds, rfl⟩ := digitsOf_sound hd
            refine ⟨c :: sign ++ ds, .some ?_ hsign hds hne, by simp⟩
            simpa [exponentMarks] using hc
    · cases h
      exact ⟨[], .none, rfl⟩

theorem exists_minusText (t : Text) : ∃ negative t', t = minusText negative ++ t' ∧
    (negative = false → ∀ c ∈ t'.head?, c ≠ hyphen) := by
  cases t with
  | nil => exact ⟨false, [], rfl, fun _ c hc => by cases hc⟩
  | cons c t =>
    by_cases hc : c = hyphen
    · exact ⟨true, t, by rw [hc]; rfl, fun h => by cases h⟩
    · refine ⟨false, c :: t, rfl, fun _ d hd => ?_⟩
      rw [← Option.some.inj hd]
      exact hc

/-- A number after its sign. -/
theorem readNumeral?_minusText {negative : Bool} {t : Text}
    (h : negative = false → ∀ c ∈ t.head?, c ≠ hyphen) :
    readNumeral? (minusText negative ++ t) = (readWhole? t).map fun w =>
      (⟨negative, w.1, (readFraction w.2).1, (readExponent (readFraction w.2).2).1⟩,
        (readExponent (readFraction w.2).2).2) := by
  cases negative with
  | true =>
    show readNumeral? (hyphen :: t) = _
    simp only [readNumeral?, if_true]
    cases readWhole? t <;> rfl
  | false =>
    cases t with
    | nil => rfl
    | cons c t =>
      have hc : (if c = hyphen then (true, t) else (false, c :: t)) = (false, c :: t) :=
        if_neg (h rfl c rfl)
      show readNumeral? (c :: t) = _
      simp only [readNumeral?, hc]
      cases readWhole? (c :: t) <;> rfl

/-- What the reader takes for a number is spelled like one. -/
theorem readNumeral?_sound {t rest : Text} {n : Numeral} (h : readNumeral? t = some (n, rest)) :
    ∃ s, SpellsNumeral s n ∧ t = s ++ rest := by
  obtain ⟨negative, t, rfl, hsign⟩ := exists_minusText t
  rw [readNumeral?_minusText hsign, Option.map_eq_some_iff] at h
  obtain ⟨⟨whole, t₁⟩, hw, h⟩ := h
  cases h
  obtain ⟨hwhole, rfl⟩ := readWhole?_sound hw
  obtain ⟨hfraction, ht₁⟩ := readFraction_sound (Prod.eta (readFraction t₁)).symm
  obtain ⟨e, he, ht₂⟩ := readExponent_sound (Prod.eta (readExponent (readFraction t₁).2)).symm
  refine ⟨_, .mk hwhole hfraction he, ?_⟩
  simp only [List.append_assoc]
  rw [← ht₂, ← ht₁]

/-! ### the end of a number -/

/-- What follows a value in a document. -/
def Delimited (rest : Text) : Prop :=
  ∀ c ∈ rest.head?, isSpace c = true ∨ c = comma ∨ c = closeBracket ∨ c = closeBrace

/-- No mark that follows a value goes on with a number. -/
theorem Delimited.not_numeric {rest : Text} (h : Delimited rest) {c : CodePoint}
    (hc : c ∈ rest.head?) : isDigit c = false ∧ c ≠ point ∧ c ∉ exponentMarks := by
  rcases h c hc with h | rfl | rfl | rfl
  · simp only [isSpace, Bool.or_eq_true, beq_iff_eq] at h
    rcases h with ((rfl | rfl) | rfl) | rfl <;> decide
  · decide
  · decide
  · decide

theorem readWhole?_append {whole rest : Text} (hw : IsWhole whole)
    (hr : ∀ c ∈ rest.head?, isDigit c = false) :
    readWhole? (whole ++ rest) = some (whole, rest) := by
  obtain ⟨hd, hne, hz⟩ := hw
  cases whole with
  | nil => exact absurd rfl hne
  | cons c t =>
    rw [List.cons_append, readWhole?]
    by_cases hc : c = zero
    · have ht := hz (by rw [hc]; rfl)
      cases ht
      rw [if_pos rfl]
      rfl
    · rw [if_neg hc, if_pos (hd c List.mem_cons_self), ← List.cons_append, digitsOf_append hd hr]

theorem readFraction_append {fraction rest : Text} (hf : Digits fraction)
    (hr : ∀ c ∈ rest.head?, isDigit c = false) (hp : ∀ c ∈ rest.head?, c ≠ point) :
    readFraction (fractionText fraction ++ rest) = (fraction, rest) := by
  by_cases hn : fraction = []
  · subst hn
    cases rest with
    | nil => rfl
    | cons c rest =>
      have hc : c ≠ point := hp c rfl
      rw [fractionText, if_pos rfl, List.nil_append, readFraction, if_neg fun h => hc h.1]
  · rw [fractionText, if_neg hn, List.cons_append, readFraction, digitsOf_append hf hr,
      if_pos ⟨rfl, hn⟩]

theorem readSign_append {sign rest : Text} {negative : Bool} (hs : (sign, negative) ∈ signs)
    (hr : ∀ c ∈ rest.head?, c ≠ hyphen ∧ c ≠ plus) : readSign (sign ++ rest) = (negative, rest) := by
  simp only [signs, List.mem_cons, List.not_mem_nil, or_false, Prod.mk.injEq] at hs
  rcases hs with ⟨rfl, rfl⟩ | ⟨rfl, rfl⟩ | ⟨rfl, rfl⟩
  · cases rest with
    | nil => rfl
    | cons c rest =>
      obtain ⟨h₁, h₂⟩ := hr c rfl
      rw [List.nil_append, readSign, if_neg h₁, if_neg h₂]
  · rfl
  · rfl

theorem readExponent_append {e rest : Text} {exponent : Option Int}
    (he : SpellsExponent e exponent) (hr : Delimited rest) :
    readExponent (e ++ rest) = (exponent, rest) := by
  cases he with
  | none =>
    cases rest with
    | nil => rfl
    | cons c rest =>
      have hc := (hr.not_numeric (c := c) rfl).2.2
      rw [List.nil_append, readExponent, if_neg]
      simpa [exponentMarks] using hc
  | @some mark sign negative digits hm hs hd hne =>
    have hfirst : ∀ c ∈ (digits ++ rest).head?, c ≠ hyphen ∧ c ≠ plus := by
      intro c hc
      have hdigit : isDigit c = true := by
        cases digits with
        | nil => exact absurd rfl hne
        | cons d ds =>
          cases hc
          exact hd _ List.mem_cons_self
      constructor
      · rintro rfl
        exact absurd hdigit (by decide)
      · rintro rfl
        exact absurd hdigit (by decide)
    have hmark : mark = CodePoint.ofChar 'e' ∨ mark = CodePoint.ofChar 'E' := by
      simpa [exponentMarks] using hm
    rw [List.append_assoc, List.cons_append, readExponent, if_pos hmark, readSign_append hs hfirst]
    simp only
    rw [digitsOf_append hd fun c hc => (hr.not_numeric hc).1]
    simp only
    rw [if_neg hne]

theorem SpellsExponent.head {e rest : Text} {exponent : Option Int}
    (he : SpellsExponent e exponent) (hr : Delimited rest) {c : CodePoint}
    (hc : c ∈ (e ++ rest).head?) : isDigit c = false ∧ c ≠ point := by
  cases he with
  | none =>
    obtain ⟨hdigit, hpoint, _⟩ := hr.not_numeric hc
    exact ⟨hdigit, hpoint⟩
  | some hm =>
    cases hc
    simp only [exponentMarks, List.mem_cons, List.not_mem_nil, or_false] at hm
    rcases hm with rfl | rfl <;> decide

theorem head_fractionText {fraction t : Text} (ht : ∀ c ∈ t.head?, isDigit c = false)
    {c : CodePoint} (hc : c ∈ (fractionText fraction ++ t).head?) : isDigit c = false := by
  by_cases hn : fraction = []
  · rw [fractionText, if_pos hn] at hc
    exact ht c hc
  · rw [fractionText, if_neg hn] at hc
    cases hc
    rfl

/-- A number is read to its end if a mark follows that ends a value. -/
theorem readNumeral?_append {s rest : Text} {n : Numeral} (hs : SpellsNumeral s n)
    (hr : Delimited rest) : readNumeral? (s ++ rest) = some (n, rest) := by
  cases hs with
  | @mk negative whole fraction e exponent hw hf he =>
    have hminus : negative = false → ∀ c ∈ (whole ++ (fractionText fraction ++ (e ++ rest))).head?,
        c ≠ hyphen := by
      intro _ c hc
      cases hwhole : whole with
      | nil => exact absurd hwhole hw.ne_nil
      | cons d ds =>
        rw [hwhole] at hc
        cases hc
        rintro rfl
        exact absurd (hw.digits hyphen (by rw [hwhole]; exact List.mem_cons_self)) (by decide)
    rw [List.append_assoc, List.append_assoc, List.append_assoc, readNumeral?_minusText hminus,
      readWhole?_append hw fun c hc => head_fractionText (fun _ h => (he.head hr h).1) hc]
    simp only [Option.map_some]
    rw [readFraction_append hf (fun _ h => (he.head hr h).1) fun _ h => (he.head hr h).2]
    simp only
    rw [readExponent_append he hr]

/-! ### the size of a number -/

theorem powerOfTen_le_powerOfTen {m n : Nat} (h : m ≤ n) :
    Number.powerOfTen m ≤ Number.powerOfTen n :=
  Nat.pow_le_pow_right (by decide) h

theorem digitsValue_lt {t : Text} (ht : Digits t) :
    Number.digitsValue t < Number.powerOfTen t.length := by
  have hfold : ∀ a, t.foldl (fun n c => 10 * n + (c.val - 0x30)) a < (a + 1) * 10 ^ t.length := by
    induction t with
    | nil =>
      intro a
      simp
    | cons c t ih =>
      intro a
      have hc : c.val - 0x30 ≤ 9 := by
        have hdigit := of_decide_eq_true (ht c List.mem_cons_self)
        omega
      have hrest := ih (fun d hd => ht d (List.mem_cons_of_mem c hd)) (10 * a + (c.val - 0x30))
      calc t.foldl (fun n c => 10 * n + (c.val - 0x30)) (10 * a + (c.val - 0x30))
          < (10 * a + (c.val - 0x30) + 1) * 10 ^ t.length := hrest
        _ ≤ ((a + 1) * 10) * 10 ^ t.length := Nat.mul_le_mul_right _ (by omega)
        _ = (a + 1) * 10 ^ (c :: t).length := by
          rw [List.length_cons, Nat.pow_succ', Nat.mul_assoc]
  have h := hfold 0
  rw [Nat.zero_add, Nat.one_mul] at h
  exact h

/-- An integer that has been read fits. -/
theorem fitsDigits_of_value {s : Text} {n : Numeral} {k : Int} (hs : SpellsNumeral s n)
    (hv : n.value = .ok (.int k)) : Number.FitsDigits k := by
  cases hs with
  | @mk negative whole fraction e exponent hw _ _ =>
    unfold Numeral.value at hv
    split at hv
    · split at hv
      · cases hv
      · next hlimit =>
        have hlt : Number.digitsValue whole < Number.powerOfTen Number.digitLimit :=
          Nat.lt_of_lt_of_le (digitsValue_lt hw.digits)
            (powerOfTen_le_powerOfTen (Nat.le_of_not_lt hlimit))
        simp only [Except.ok.injEq, Json.int.injEq] at hv
        unfold Number.FitsDigits
        rw [← hv]
        split <;> omega
    · cases hv

/-! ### numbers as they are written -/

theorem head?_naturalText_ne_zero {n : Nat} (hn : n ≠ 0) :
    (Number.naturalText n).head? ≠ some zero := by
  induction n using Nat.strongRecOn with
  | ind n ih =>
    by_cases hlt : n < 10
    · have hall : ∀ m < 10, m ≠ 0 → ([m.digitChar].map ofChar).head? ≠ some zero := by decide
      rw [Number.naturalText, Nat.toDigits_of_lt_base hlt]
      exact hall n hlt hn
    · have hle : 10 ≤ n := Nat.le_of_not_lt hlt
      have hquotient : n / 10 ≠ 0 := by omega
      have hfirst := ih (n / 10) (by omega) hquotient
      rw [Number.naturalText, Nat.toDigits_of_base_le (by decide) hle, List.map_append,
        List.head?_append]
      cases hh : (Number.naturalText (n / 10)).head? with
      | none => exact absurd (List.head?_eq_none_iff.mp hh) (Number.naturalText_ne_nil _)
      | some c =>
        rw [hh] at hfirst
        rw [← Number.naturalText, hh]
        exact hfirst

theorem isWhole_naturalText (n : Nat) : IsWhole (Number.naturalText n) where
  digits _ hc := Number.isDigit_of_mem_naturalText hc
  ne_nil := Number.naturalText_ne_nil n
  eq_zero h := by
    by_cases hn : n = 0
    · rw [hn]
      rfl
    · exact absurd h (head?_naturalText_ne_zero hn)

theorem spellsNumeral_integerText (n : Int) :
    SpellsNumeral (Number.integerText n)
      ⟨decide (n < 0), Number.naturalText n.natAbs, [], none⟩ := by
  have ht : Number.integerText n = minusText (decide (n < 0)) ++ (Number.naturalText n.natAbs ++
      (fractionText [] ++ [])) := by
    rw [Number.integerText, minusText, fractionText, if_pos rfl, List.append_nil, List.append_nil]
    by_cases hn : n < 0
    · rw [if_pos hn, if_pos (decide_eq_true hn)]
      rfl
    · rw [if_neg hn, if_neg fun h => hn (of_decide_eq_true h)]
      rfl
  rw [ht]
  exact .mk (isWhole_naturalText n.natAbs) digits_nil .none

/-- An integer that fits is read back. -/
theorem value_integerText {n : Int} (hn : Number.FitsDigits n) :
    Numeral.value ⟨decide (n < 0), Number.naturalText n.natAbs, [], none⟩ = .ok (.int n) := by
  have hlength : ¬ Number.digitLimit < (Number.naturalText n.natAbs).length :=
    Nat.not_lt.mpr ((Number.length_naturalText_le_iff _ (by decide)).mpr hn)
  rw [Numeral.value, if_pos ⟨rfl, rfl⟩, if_neg hlength, Number.digitsValue_naturalText]
  simp only [decide_eq_true_eq]
  congr 2
  split <;> omega

end SelectorForge.Json
