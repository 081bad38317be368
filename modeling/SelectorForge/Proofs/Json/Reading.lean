import SelectorForge.Proofs.Json.Members
import SelectorForge.Proofs.Json.Numeral
import SelectorForge.Proofs.Json.Strings

/-!
# The documents of texts

The reader and the grammar agree: a text is read exactly if it spells a document, and what is read
is this document with the members of one name put together.

* `readValue_sound`    what is read is spelled;
* `Spells.readValue`   what is spelled is read;
* `ofText_eq_ok_iff`   both, for a whole text.
-/

namespace SelectorForge.Json

open CodePoint

/-! ### words and scalars -/

theorem eq_append_of_after?_eq_some {word t rest : Text} (h : after? word t = some rest) :
    t = word ++ rest := by
  unfold after? at h
  split at h
  · next hp =>
    rw [← Option.some.inj h]
    exact (List.prefix_iff_eq_append.mp (List.isPrefixOf_iff_prefix.mp hp)).symm
  · cases h

theorem readWord?_sound {t rest : Text} {d : Json} (h : readWord? t = some (d, rest)) :
    ∃ word, (word, d) ∈ words ∧ t = word ++ rest := by
  obtain ⟨⟨word, value⟩, hw, h⟩ := List.exists_of_findSome?_eq_some h
  obtain ⟨r, hr, h⟩ := Option.map_eq_some_iff.mp h
  cases h
  exact ⟨word, hw, eq_append_of_after?_eq_some hr⟩

theorem readWord?_append {word : Text} {d : Json} (h : (word, d) ∈ words) (rest : Text) :
    readWord? (word ++ rest) = some (d, rest) := by
  simp only [words, List.mem_cons, List.not_mem_nil, or_false, Prod.mk.injEq] at h
  rcases h with ⟨rfl, rfl⟩ | ⟨rfl, rfl⟩ | ⟨rfl, rfl⟩ | ⟨rfl, rfl⟩ | ⟨rfl, rfl⟩ | ⟨rfl, rfl⟩ <;> rfl

theorem merged_word {word : Text} {d : Json} (h : (word, d) ∈ words) : d.merged = d := by
  simp only [words, List.mem_cons, List.not_mem_nil, or_false, Prod.mk.injEq] at h
  rcases h with ⟨_, rfl⟩ | ⟨_, rfl⟩ | ⟨_, rfl⟩ | ⟨_, rfl⟩ | ⟨_, rfl⟩ | ⟨_, rfl⟩ <;> rfl

theorem merged_value {n : Numeral} {d : Json} (h : n.value = .ok d) : d.merged = d := by
  unfold Numeral.value at h
  split at h
  · split at h
    · cases h
    · cases h
      rfl
  · cases h
    rfl

theorem readScalar_sound {t rest : Text} {d : Json} (h : readScalar t = .ok (d, rest)) :
    ∃ s, Spells s d ∧ d.merged = d ∧ t = s ++ rest := by
  unfold readScalar at h
  cases hw : readWord? t with
  | some r =>
    rw [hw] at h
    cases h
    obtain ⟨word, hword, rfl⟩ := readWord?_sound hw
    exact ⟨word, .word hword, merged_word hword, rfl⟩
  | none =>
    rw [hw] at h
    cases hn : readNumeral? t with
    | none => rw [hn] at h; cases h
    | some r =>
      rw [hn] at h
      obtain ⟨v, hv, h⟩ := exists_of_map_eq_ok h
      cases h
      obtain ⟨s, hs, rfl⟩ := readNumeral?_sound hn
      exact ⟨s, .numeral hs hv, merged_value hv, rfl⟩

/-! ### what is read is spelled -/

theorem readName_sound {t name rest : Text} (h : readName t = .ok (name, rest)) :
    ∃ k, SpellsName k name ∧ t = k ++ rest := by
  cases t with
  | nil => cases h
  | cons c t =>
    rw [readName] at h
    split at h
    · next hc =>
      cases hs : readString t with
      | error e => rw [hs] at h; cases h
      | ok r =>
        obtain ⟨text, r⟩ := r
        rw [hs] at h
        obtain ⟨s, hspells, rfl⟩ := readString_sound hs
        obtain ⟨gap, hg, hr⟩ := exists_blank_append r
        cases hk : skipSpace r with
        | nil => simp only [bind, Except.bind, hk] at h; cases h
        | cons c' r' =>
          simp only [bind, Except.bind, hk] at h
          split at h
          · next hcolon =>
            obtain ⟨before, hb, hr'⟩ := exists_blank_append r'
            cases h
            refine ⟨_, .mk hspells hg hb, ?_⟩
            rw [hc, hr, hk, hcolon]
            simp only [List.cons_append, List.append_assoc]
            rw [← hr']
          · cases h
    · cases h

mutual

theorem readValue_sound (fuel : Nat) {t rest : Text} {d : Json}
    (h : readValue fuel t = .ok (d, rest)) :
    ∃ s raw, Spells s raw ∧ raw.merged = d ∧ t = s ++ rest := by
  cases fuel with
  | zero => rw [readValue] at h; cases h
  | succ fuel =>
    cases t with
    | nil => rw [readValue] at h; cases h
    | cons c t =>
      rw [readValue.eq_def] at h
      simp only at h
      split at h
      · next hc =>
        obtain ⟨⟨text, r⟩, hs, h⟩ := exists_of_map_eq_ok h
        cases h
        obtain ⟨s, hspells, rfl⟩ := readString_sound hs
        exact ⟨_, _, .string hspells, rfl, by rw [hc]; rfl⟩
      · split at h
        · next hc =>
          obtain ⟨b, hb, ht⟩ := exists_blank_append t
          cases hk : skipSpace t with
          | nil => simp only [hk] at h; cases h
          | cons c' t' =>
            simp only [hk] at h
            rw [hc, ht, hk]
            split at h
            · next hclose =>
              cases h
              exact ⟨_, _, .emptyArray hb, rfl, by rw [hclose]; simp⟩
            · obtain ⟨⟨items, r⟩, hitems, h⟩ := exists_of_map_eq_ok h
              cases h
              obtain ⟨s, raws, hs, rfl, hrest⟩ := readItems_sound fuel hitems
              exact ⟨_, _, .array hb hs, merged_arr raws, by rw [hrest]; simp⟩
        · split at h
          · next hc =>
            obtain ⟨b, hb, ht⟩ := exists_blank_append t
            cases hk : skipSpace t with
            | nil => simp only [hk] at h; cases h
            | cons c' t' =>
              simp only [hk] at h
              rw [hc, ht, hk]
              split at h
              · next hclose =>
                cases h
                exact ⟨_, _, .emptyObject hb, merged_obj [], by rw [hclose]; simp⟩
              · obtain ⟨⟨ms, r⟩, hms, h⟩ := exists_of_map_eq_ok h
                cases h
                obtain ⟨s, raws, hs, rfl, hrest⟩ := readMembers_sound fuel hms
                exact ⟨_, _, .object hb hs, merged_obj raws, by rw [hrest]; simp⟩
          · obtain ⟨s, hs, hm, ht⟩ := readScalar_sound h
            exact ⟨s, d, hs, hm, ht⟩

theorem readItems_sound (fuel : Nat) {t rest : Text} {ds : List Json}
    (h : readItems fuel t = .ok (ds, rest)) :
    ∃ s raws, SpellsItems s raws ∧ raws.map merged = ds ∧ t = s ++ rest := by
  cases fuel with
  | zero => rw [readItems] at h; cases h
  | succ fuel =>
    rw [readItems] at h
    cases hv : readValue fuel t with
    | error e => rw [hv] at h; cases h
    | ok r =>
      obtain ⟨d, r⟩ := r
      rw [hv] at h
      obtain ⟨s, raw, hs, rfl, rfl⟩ := readValue_sound fuel hv
      obtain ⟨a, ha, hr⟩ := exists_blank_append r
      cases hk : skipSpace r with
      | nil => simp only [bind, Except.bind, hk] at h; cases h
      | cons c r' =>
        simp only [bind, Except.bind, hk] at h
        split at h
        · next hc =>
          cases h
          refine ⟨_, _, .last hs ha, rfl, ?_⟩
          rw [hr, hk, hc]
          simp
        · split at h
          · next hc =>
            obtain ⟨b, hb, hr'⟩ := exists_blank_append r'
            cases hi : readItems fuel (skipSpace r') with
            | error e => rw [hi] at h; cases h
            | ok p =>
              obtain ⟨ds, r''⟩ := p
              rw [hi] at h
              cases h
              obtain ⟨s', raws, hs', rfl, ht⟩ := readItems_sound fuel hi
              refine ⟨_, _, .more hs ha hb hs', rfl, ?_⟩
              rw [hr, hk, hc, hr', ht]
              simp
          · cases h

theorem readMembers_sound (fuel : Nat) {t rest : Text} {ms : List (Text × Json)}
    (h : readMembers fuel t = .ok (ms, rest)) :
    ∃ s raws, SpellsMembers s raws ∧ (raws.map fun m => (m.1, merged m.2)) = ms ∧
      t = s ++ rest := by
  cases fuel with
  | zero => rw [readMembers] at h; cases h
  | succ fuel =>
    rw [readMembers] at h
    cases hn : readName t with
    | error e => rw [hn] at h; cases h
    | ok p =>
      obtain ⟨name, t'⟩ := p
      rw [hn] at h
      simp only [bind, Except.bind] at h
      obtain ⟨k, hname, rfl⟩ := readName_sound hn
      cases hv : readValue fuel t' with
      | error e => rw [hv] at h; cases h
      | ok p =>
        obtain ⟨d, r⟩ := p
        rw [hv] at h
        obtain ⟨s, raw, hs, rfl, rfl⟩ := readValue_sound fuel hv
        obtain ⟨a, ha, hr⟩ := exists_blank_append r
        cases hk : skipSpace r with
        | nil => simp only [hk] at h; cases h
        | cons c r' =>
          simp only [hk] at h
          split at h
          · next hc =>
            cases h
            refine ⟨_, _, .last hname hs ha, rfl, ?_⟩
            rw [hr, hk, hc]
            simp
          · split at h
            · next hc =>
              obtain ⟨b, hb, hr'⟩ := exists_blank_append r'
              cases hm : readMembers fuel (skipSpace r') with
              | error e => rw [hm] at h; cases h
              | ok p =>
                obtain ⟨ms, r''⟩ := p
                rw [hm] at h
                cases h
                obtain ⟨s', raws, hs', rfl, ht⟩ := readMembers_sound fuel hm
                refine ⟨_, _, .more hname hs ha hb hs', rfl, ?_⟩
                rw [hr, hk, hc, hr', ht]
                simp
            · cases h

end

/-! ### what is spelled is read -/

/-- What a value does not begin with. -/
structure Opens (c : CodePoint) : Prop where
  notSpace : isSpace c = false
  notCloseBracket : c ≠ closeBracket
  notBom : c ≠ byteOrderMark

/-- What a value that is neither a string nor holds others does not begin with either. -/
structure OpensScalar (c : CodePoint) : Prop extends Opens c where
  notQuotation : c ≠ quotationMark
  notOpenBracket : c ≠ openBracket
  notOpenBrace : c ≠ openBrace

/-- A text that begins as values do. -/
def Begins (t : Text) : Prop := ∃ c u, t = c :: u ∧ Opens c

def BeginsScalar (t : Text) : Prop := ∃ c u, t = c :: u ∧ OpensScalar c

theorem BeginsScalar.begins {t : Text} (h : BeginsScalar t) : Begins t := by
  obtain ⟨c, u, rfl, hc⟩ := h
  exact ⟨c, u, rfl, hc.toOpens⟩

theorem begins_quotationMark (t : Text) : Begins (quotationMark :: t) :=
  ⟨_, t, rfl, by decide, by decide, by decide⟩

theorem Begins.append {s : Text} (h : Begins s) (t : Text) : Begins (s ++ t) := by
  obtain ⟨c, u, rfl, hc⟩ := h
  exact ⟨c, u ++ t, rfl, hc⟩

theorem Begins.skipSpace_append {b t : Text} (ht : Begins t) (hb : Blank b) :
    skipSpace (b ++ t) = t := by
  obtain ⟨c, u, rfl, hc⟩ := ht
  rw [Json.skipSpace_append hb, skipSpace_cons hc.notSpace]

/-- There is fuel for a text that has something in it. -/
theorem Begins.exists_fuel {s : Text} (hs : Begins s) {fuel : Nat} (hf : 2 * s.length ≤ fuel) :
    ∃ n, fuel = n + 1 := by
  obtain ⟨c, t, rfl, _⟩ := hs
  rw [List.length_cons] at hf
  exact Nat.exists_eq_succ_of_ne_zero (by omega)

/-- How a number begins: with a digit, or with a hyphen and a digit. -/
theorem SpellsNumeral.head {s : Text} {n : Numeral} (h : SpellsNumeral s n) :
    ∃ c t, isDigit c = true ∧ (s = c :: t ∨ s = hyphen :: c :: t) := by
  cases h with
  | @mk negative whole fraction e exponent hw _ _ =>
    cases hwhole : whole with
    | nil => exact absurd hwhole hw.ne_nil
    | cons c t =>
      have hc : isDigit c = true := hw.digits c (by rw [hwhole]; exact List.mem_cons_self)
      cases negative with
      | false => exact ⟨c, t ++ (fractionText fraction ++ e), hc, Or.inl rfl⟩
      | true => exact ⟨c, t ++ (fractionText fraction ++ e), hc, Or.inr rfl⟩

theorem opensScalar_of_isDigit {c : CodePoint} (h : isDigit c = true) : OpensScalar c := by
  have hne : ∀ d, isDigit d = false → c ≠ d := by
    rintro d hd rfl
    rw [h] at hd
    cases hd
  have hspace : isSpace c = false := by
    cases hs : isSpace c with
    | false => rfl
    | true =>
      simp only [isSpace, Bool.or_eq_true, beq_iff_eq] at hs
      rcases hs with ((rfl | rfl) | rfl) | rfl <;> cases h
  exact ⟨⟨hspace, hne _ rfl, hne _ rfl⟩, hne _ rfl, hne _ rfl, hne _ rfl⟩

theorem SpellsNumeral.begins {s : Text} {n : Numeral} (h : SpellsNumeral s n) :
    BeginsScalar s := by
  obtain ⟨c, t, hc, rfl | rfl⟩ := h.head
  · exact ⟨c, t, rfl, opensScalar_of_isDigit hc⟩
  · exact ⟨hyphen, c :: t, rfl, ⟨by decide, by decide, by decide⟩, by decide, by decide, by decide⟩

theorem begins_of_mem_words {word : Text} {d : Json} (h : (word, d) ∈ words) :
    BeginsScalar word := by
  simp only [words, List.mem_cons, List.not_mem_nil, or_false, Prod.mk.injEq] at h
  rcases h with ⟨rfl, _⟩ | ⟨rfl, _⟩ | ⟨rfl, _⟩ | ⟨rfl, _⟩ | ⟨rfl, _⟩ | ⟨rfl, _⟩ <;>
    exact ⟨_, _, rfl, ⟨by decide, by decide, by decide⟩, by decide, by decide, by decide⟩

theorem Spells.begins {s : Text} {d : Json} (h : Spells s d) : Begins s := by
  cases h with
  | word h => exact (begins_of_mem_words h).begins
  | numeral h _ => exact h.begins.begins
  | string h =>
    obtain ⟨t, rfl, _⟩ := h.exists_readString
    exact begins_quotationMark t
  | emptyArray _ | array _ _ | emptyObject _ | object _ _ =>
    exact ⟨_, _, rfl, by decide, by decide, by decide⟩

theorem SpellsItems.begins {s : Text} {ds : List Json} (h : SpellsItems s ds) : Begins s := by
  cases h with
  | last h _ | more h _ _ _ => exact h.begins.append _

theorem SpellsName.exists_cons {k name : Text} (h : SpellsName k name) :
    ∃ t, k = quotationMark :: t := by
  cases h with
  | mk h =>
    obtain ⟨t, rfl, _⟩ := h.exists_readString
    exact ⟨_, rfl⟩

theorem SpellsMembers.exists_cons {s : Text} {ms : List (Text × Json)} (h : SpellsMembers s ms) :
    ∃ t, s = quotationMark :: t := by
  cases h with
  | last hk _ _ | more hk _ _ _ _ =>
    obtain ⟨t, rfl⟩ := hk.exists_cons
    exact ⟨_, rfl⟩

theorem SpellsMembers.begins {s : Text} {ms : List (Text × Json)} (h : SpellsMembers s ms) :
    Begins s := by
  obtain ⟨t, rfl⟩ := h.exists_cons
  exact begins_quotationMark t

theorem delimited_append {a t : Text} (ha : Blank a) (ht : Delimited t) : Delimited (a ++ t) := by
  cases a with
  | nil => exact ht
  | cons c a =>
    intro d hd
    rw [← Option.some.inj hd]
    exact Or.inl (ha c List.mem_cons_self)

theorem delimited_comma (t : Text) : Delimited (comma :: t) := by
  intro d hd
  rw [← Option.some.inj hd]
  exact Or.inr (Or.inl rfl)

theorem delimited_closeBracket (t : Text) : Delimited (closeBracket :: t) := by
  intro d hd
  rw [← Option.some.inj hd]
  exact Or.inr (Or.inr (Or.inl rfl))

theorem delimited_closeBrace (t : Text) : Delimited (closeBrace :: t) := by
  intro d hd
  rw [← Option.some.inj hd]
  exact Or.inr (Or.inr (Or.inr rfl))

/-- No word begins as a number does. -/
theorem head_of_mem_words {word : Text} {d : Json} (h : (word, d) ∈ words) :
    ∃ c t, word = c :: t ∧ isDigit c = false ∧
      (c = hyphen → ∃ e u, t = e :: u ∧ isDigit e = false) := by
  simp only [words, List.mem_cons, List.not_mem_nil, or_false, Prod.mk.injEq] at h
  rcases h with ⟨rfl, _⟩ | ⟨rfl, _⟩ | ⟨rfl, _⟩ | ⟨rfl, _⟩ | ⟨rfl, _⟩ | ⟨rfl, _⟩ <;>
    exact ⟨_, _, rfl, rfl, fun _ => ⟨_, _, rfl, rfl⟩⟩

theorem readWord?_of_numeral {s : Text} {n : Numeral} (h : SpellsNumeral s n) (rest : Text) :
    readWord? (s ++ rest) = none := by
  cases hw : readWord? (s ++ rest) with
  | none => rfl
  | some p =>
    obtain ⟨word, hmem, heq⟩ := readWord?_sound hw
    obtain ⟨e, u, rfl, he, hu⟩ := head_of_mem_words hmem
    obtain ⟨c, t, hc, rfl | rfl⟩ := h.head
    · have hce : c = e := (List.cons.inj heq).1
      rw [hce, he] at hc
      cases hc
    · obtain ⟨hhyphen, htail⟩ := List.cons.inj heq
      obtain ⟨f, v, rfl, hf⟩ := hu hhyphen.symm
      have hcf : c = f := (List.cons.inj htail).1
      rw [hcf, hf] at hc
      cases hc

theorem readScalar_word {word : Text} {d : Json} (h : (word, d) ∈ words) (rest : Text) :
    readScalar (word ++ rest) = .ok (d, rest) := by
  rw [readScalar, readWord?_append h]

theorem readScalar_numeral {s rest : Text} {n : Numeral} {d : Json} (h : SpellsNumeral s n)
    (hv : n.value = .ok d) (hr : Delimited rest) : readScalar (s ++ rest) = .ok (d, rest) := by
  rw [readScalar, readWord?_of_numeral h, readNumeral?_append h hr]
  simp only
  rw [hv]
  rfl

theorem readName_append {k name : Text} (h : SpellsName k name) {t : Text} (ht : Begins t) :
    readName (k ++ t) = .ok (name, t) := by
  cases h with
  | @mk literal _ gap before h hg hb =>
    obtain ⟨s, rfl, hread⟩ := h.exists_readString
    simp only [List.cons_append, List.append_assoc]
    rw [readName, if_pos rfl, hread]
    simp only [bind, Except.bind]
    rw [skipSpace_append hg, skipSpace_cons rfl]
    simp only [if_true]
    rw [ht.skipSpace_append hb]

theorem readValue_of_beginsScalar {s : Text} (h : BeginsScalar s) (fuel : Nat) (rest : Text) :
    readValue (fuel + 1) (s ++ rest) = readScalar (s ++ rest) := by
  obtain ⟨c, t, rfl, hc⟩ := h
  rw [List.cons_append, readValue.eq_def]
  simp only [if_neg hc.notQuotation, if_neg hc.notOpenBracket, if_neg hc.notOpenBrace]

/-- An array with items. -/
theorem readValue_openBracket {b t : Text} (hb : Blank b) (ht : Begins t) (fuel : Nat) :
    readValue (fuel + 1) (openBracket :: (b ++ t))
      = (readItems fuel t).map fun (items, r) => (.arr items, r) := by
  rw [readValue.eq_def]
  simp only [if_neg (show ¬ openBracket = quotationMark by decide), if_true]
  rw [ht.skipSpace_append hb]
  obtain ⟨c, u, rfl, hc⟩ := ht
  simp only [if_neg hc.notCloseBracket]

/-- An object with members. -/
theorem readValue_openBrace {b t : Text} (hb : Blank b) (ht : ∃ u, t = quotationMark :: u)
    (fuel : Nat) : readValue (fuel + 1) (openBrace :: (b ++ t))
      = (readMembers fuel t).map fun (ms, r) => (.obj (Fields.collapse ms), r) := by
  obtain ⟨u, rfl⟩ := ht
  rw [readValue.eq_def]
  simp only [if_neg (show ¬ openBrace = quotationMark by decide),
    if_neg (show ¬ openBrace = openBracket by decide), if_true]
  rw [(begins_quotationMark u).skipSpace_append hb]
  simp only [if_neg (show ¬ quotationMark = closeBrace by decide)]

mutual

/-- What a value is read as, whatever follows it. -/
theorem Spells.readValue {s : Text} {d : Json} (h : Spells s d) {rest : Text}
    (hr : Delimited rest) (fuel : Nat) (hf : 2 * s.length ≤ fuel) :
    readValue fuel (s ++ rest) = .ok (d.merged, rest) := by
  obtain ⟨fuel, rfl⟩ := h.begins.exists_fuel hf
  cases h with
  | word h =>
    rw [readValue_of_beginsScalar (begins_of_mem_words h), readScalar_word h, merged_word h]
  | numeral h hv =>
    rw [readValue_of_beginsScalar h.begins, readScalar_numeral h hv hr, merged_value hv]
  | string h =>
    obtain ⟨t, rfl, hread⟩ := h.exists_readString
    rw [List.cons_append, Json.readValue.eq_def]
    simp only [if_true]
    rw [hread]
    rfl
  | @emptyArray b hb =>
    rw [List.cons_append, List.append_assoc, Json.readValue.eq_def]
    simp only [if_neg (show ¬ openBracket = quotationMark by decide), if_true]
    rw [skipSpace_append hb, List.singleton_append, skipSpace_cons rfl]
    simp only [if_true]
    rfl
  | @array b t ds hb h =>
    rw [List.length_cons, List.length_append] at hf
    rw [List.cons_append, List.append_assoc, readValue_openBracket hb (h.begins.append rest),
      h.readItems rest fuel (by omega), merged_arr]
    rfl
  | @emptyObject b hb =>
    rw [List.cons_append, List.append_assoc, Json.readValue.eq_def]
    simp only [if_neg (show ¬ openBrace = quotationMark by decide),
      if_neg (show ¬ openBrace = openBracket by decide), if_true]
    rw [skipSpace_append hb, List.singleton_append, skipSpace_cons rfl]
    simp only [if_true]
    rfl
  | @object b t ms hb h =>
    have hquotation : ∃ u, t ++ rest = quotationMark :: u := by
      obtain ⟨u, rfl⟩ := h.exists_cons
      exact ⟨_, rfl⟩
    rw [List.length_cons, List.length_append] at hf
    rw [List.cons_append, List.append_assoc, readValue_openBrace hb hquotation,
      h.readMembers rest fuel (by omega), merged_obj]
    rfl

theorem SpellsItems.readItems {s : Text} {ds : List Json} (h : SpellsItems s ds) (rest : Text)
    (fuel : Nat) (hf : 2 * s.length ≤ fuel) :
    readItems fuel (s ++ rest) = .ok (ds.map merged, rest) := by
  obtain ⟨fuel, rfl⟩ := h.begins.exists_fuel hf
  cases h with
  | @last s a d h ha =>
    have hnext := delimited_append ha (delimited_closeBracket rest)
    simp only [List.length_append, List.length_cons, List.length_nil] at hf
    simp only [List.append_assoc, List.singleton_append]
    rw [Json.readItems, h.readValue hnext fuel (by omega)]
    simp only [bind, Except.bind]
    rw [skipSpace_append ha, skipSpace_cons rfl]
    simp only [if_true]
    rfl
  | @more s a b t d ds h ha hb ht =>
    have hnext := delimited_append ha (delimited_comma (b ++ (t ++ rest)))
    simp only [List.length_append, List.length_cons] at hf
    simp only [List.append_assoc, List.cons_append]
    rw [Json.readItems, h.readValue hnext fuel (by omega)]
    simp only [bind, Except.bind]
    rw [skipSpace_append ha, skipSpace_cons rfl]
    simp only [if_neg (show ¬ comma = closeBracket by decide), if_true]
    rw [(ht.begins.append rest).skipSpace_append hb, ht.readItems rest fuel (by omega)]
    rfl

theorem SpellsMembers.readMembers {s : Text} {ms : List (Text × Json)} (h : SpellsMembers s ms)
    (rest : Text) (fuel : Nat) (hf : 2 * s.length ≤ fuel) :
    readMembers fuel (s ++ rest) = .ok (ms.map fun m => (m.1, merged m.2), rest) := by
  obtain ⟨fuel, rfl⟩ := h.begins.exists_fuel hf
  cases h with
  | @last k s a name d hk h ha =>
    have hnext := delimited_append ha (delimited_closeBrace rest)
    simp only [List.length_append, List.length_cons, List.length_nil] at hf
    simp only [List.append_assoc, List.singleton_append]
    rw [Json.readMembers, readName_append hk (h.begins.append _)]
    simp only [bind, Except.bind]
    rw [h.readValue hnext fuel (by omega)]
    simp only
    rw [skipSpace_append ha, skipSpace_cons rfl]
    simp only [if_true]
    rfl
  | @more k s a b t name d ms hk h ha hb ht =>
    have hnext := delimited_append ha (delimited_comma (b ++ (t ++ rest)))
    simp only [List.length_append, List.length_cons] at hf
    simp only [List.append_assoc, List.cons_append]
    rw [Json.readMembers, readName_append hk (h.begins.append _)]
    simp only [bind, Except.bind]
    rw [h.readValue hnext fuel (by omega)]
    simp only
    rw [skipSpace_append ha, skipSpace_cons rfl]
    simp only [if_neg (show ¬ comma = closeBrace by decide), if_true]
    rw [(ht.begins.append rest).skipSpace_append hb, ht.readMembers rest fuel (by omega)]
    rfl

end

/-! ### whole texts -/

theorem skipSpace_eq_nil_iff {t : Text} : skipSpace t = [] ↔ Blank t := by
  constructor
  · intro h
    obtain ⟨b, hb, ht⟩ := exists_blank_append t
    rw [ht, h, List.append_nil]
    exact hb
  · intro h
    have hs := skipSpace_append h []
    rwa [List.append_nil] at hs

theorem delimited_of_blank {t : Text} (h : Blank t) : Delimited t :=
  fun c hc => Or.inl (h c (List.mem_of_head? hc))

theorem readDocument_sound {t : Text} {d : Json} (h : readDocument t = .ok d) :
    ∃ raw, Spelled t raw ∧ raw.merged = d := by
  unfold readDocument at h
  split at h
  · cases h
  · cases hv : readValue (fuelFor t) (skipSpace t) with
    | error e => rw [hv] at h; cases h
    | ok p =>
      obtain ⟨d', rest⟩ := p
      obtain ⟨s, raw, hs, rfl, hsplit⟩ := readValue_sound _ hv
      rw [hv] at h
      simp only [bind, Except.bind] at h
      cases hr : skipSpace rest with
      | cons c r => simp only [hr] at h; cases h
      | nil =>
        simp only [hr] at h
        cases h
        obtain ⟨b, hb, ht⟩ := exists_blank_append t
        rw [ht, hsplit]
        exact ⟨raw, .mk hb hs (skipSpace_eq_nil_iff.mp hr), rfl⟩

theorem Spelled.readDocument {t : Text} {raw : Json} (h : Spelled t raw) :
    readDocument t = .ok raw.merged := by
  cases h with
  | @mk before s after _ hb hs ha =>
    have hbom : ¬ (before ++ (s ++ after)).head? = some byteOrderMark := by
      intro hbom
      cases before with
      | nil =>
        obtain ⟨c, u, rfl, hc⟩ := hs.begins
        exact hc.notBom (Option.some.inj hbom)
      | cons b before =>
        have hspace := hb b List.mem_cons_self
        rw [Option.some.inj hbom] at hspace
        cases hspace
    have hskip := (hs.begins.append after).skipSpace_append hb
    have hfuel : 2 * s.length ≤ fuelFor (before ++ (s ++ after)) := by
      simp only [fuelFor, List.length_append]
      omega
    rw [Json.readDocument, if_neg hbom, hskip, hs.readValue (delimited_of_blank ha) _ hfuel]
    simp only [bind, Except.bind]
    rw [skipSpace_eq_nil_iff.mpr ha]

/-- **A text is read exactly if it spells a document**, and then this document is read, with the
members of one name put together. -/
theorem ofText_eq_ok_iff {t : Text} {d : Json} :
    ofText t = .ok d ↔ ∃ raw, Spelled t raw ∧ raw.merged = d := by
  unfold ofText
  constructor
  · intro h
    cases hd : readDocument t with
    | error e => rw [hd] at h; cases h
    | ok d' =>
      rw [hd] at h
      cases h
      exact readDocument_sound hd
  · rintro ⟨raw, h, rfl⟩
    rw [h.readDocument]
    rfl

end SelectorForge.Json
