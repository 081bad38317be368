import SelectorForge.Proofs.Json.Strings
import SelectorForge.Proofs.Text.Folding
import SelectorForge.Text.Quoted
import SelectorForge.Text.Terminal
import SelectorForge.Text.Words

/-!
# Legible texts

A text is legible if all of it is printable. Then nothing in it ends the line or begins a sequence
for the terminal, and it can be encoded. A quoted text is legible, whatever has been quoted.

* `Text.legible_quoted`            quoted texts;
* `Text.Legible.oneLine`           nothing in a legible text ends the line;
* `Text.mem_of_mem_printed`        what is printed comes from the text;
* `Text.forall_mem_words`          the words of a line are made of what is in it.
-/

namespace SelectorForge

namespace CodePoint

/-! ### printable code points -/

/-- The printable part of ASCII. -/
def IsGraphic (c : CodePoint) : Prop := 0x20 ≤ c.val ∧ c.val ≤ 0x7e

instance (c : CodePoint) : Decidable c.IsGraphic := inferInstanceAs (Decidable (_ ∧ _))

theorem IsGraphic.isPrintable {c : CodePoint} (h : c.IsGraphic) : c.isPrintable = true := by
  have htable : (unprintableRanges.all fun r => decide (r.2 < 0x20 ∨ 0x7e < r.1)) = true := by
    decide +kernel
  rw [CodePoint.isPrintable, Bool.not_eq_true', List.any_eq_false]
  intro r hr hinside
  have hrange := of_decide_eq_true (List.all_eq_true.mp htable r hr)
  have hbounds := of_decide_eq_true hinside
  have := h.1
  have := h.2
  omega

/-- What ends a line: line feed, vertical tab, form feed, carriage return, three of the information
separators, next line, and the separators of lines and of paragraphs. -/
def lineBreaks : List CodePoint := [
  ofChar '\x0a', ofChar '\x0b', ofChar '\x0c', ofChar '\x0d', ofChar '\x1c', ofChar '\x1d',
  ofChar '\x1e', ofChar '\u0085', ofChar '\u2028', ofChar '\u2029']

theorem isPrintable_of_mem_lineBreaks : ∀ c ∈ lineBreaks, c.isPrintable = false :=
  Text.forall_mem_of_all (by decide +kernel)

theorem isPrintable_of_isSurrogate {c : CodePoint} (h : c.isSurrogate = true) :
    c.isPrintable = false := by
  have hr : (0xd7fc, 0xf8ff) ∈ unprintableRanges := by decide +kernel
  have hbounds : 0xd800 ≤ c.val ∧ c.val ≤ 0xdfff := of_decide_eq_true h
  apply isPrintable_eq_false hr
  constructor <;> omega

theorem isGraphic_hexDigit (n : Nat) : (hexDigit n).IsGraphic := by
  have hn : n % 16 < 16 := Nat.mod_lt _ (by decide)
  unfold hexDigit IsGraphic
  by_cases h : n % 16 < 10
  · simp only [h, dite_true]
    constructor <;> omega
  · simp only [h, dite_false]
    constructor <;> omega

end CodePoint

namespace Text

open CodePoint

/-! ### quoted texts -/

def Legible (t : Text) : Prop := ∀ c ∈ t, c.isPrintable = true

theorem legible_append {s t : Text} : Legible (s ++ t) ↔ Legible s ∧ Legible t :=
  List.forall_mem_append

theorem legible_cons {c : CodePoint} {t : Text} :
    Legible (c :: t) ↔ c.isPrintable = true ∧ Legible t := List.forall_mem_cons

theorem legible_singleton {c : CodePoint} : Legible [c] ↔ c.isPrintable = true :=
  List.forall_mem_singleton

theorem legible_of_isGraphic {t : Text} (h : ∀ c ∈ t, c.IsGraphic) : Legible t := fun c hc =>
  (h c hc).isPrintable

theorem isGraphic_hexText (width n : Nat) : ∀ c ∈ hexText width n, c.IsGraphic := by
  induction width generalizing n with
  | zero =>
    intro c hc
    cases hc
  | succ width ih =>
    rw [hexText_succ]
    exact List.forall_mem_append.mpr
      ⟨ih (n / 16), List.forall_mem_singleton.mpr (isGraphic_hexDigit n)⟩

theorem legible_numericEscape (c : CodePoint) : Legible (numericEscape c) := by
  have hback : backslash.IsGraphic := by decide
  have hdigits : ∀ (letter : CodePoint) (width : Nat), letter.IsGraphic →
      Legible (backslash :: letter :: hexText width c.val) := fun letter width h =>
    legible_of_isGraphic (List.forall_mem_cons.mpr
      ⟨hback, List.forall_mem_cons.mpr ⟨h, isGraphic_hexText width c.val⟩⟩)
  unfold numericEscape
  split
  · exact hdigits 'x' 2 (by decide)
  · split
    · exact hdigits 'u' 4 (by decide)
    · exact hdigits 'U' 8 (by decide)

theorem legible_quotedCodePoint {mark : CodePoint} (hmark : mark.IsGraphic) (c : CodePoint) :
    Legible (quotedCodePoint mark c) := by
  -- a backslash with a mark behind it
  have hpair : ∀ d : CodePoint, d.IsGraphic → Legible [backslash, d] := fun d hd =>
    legible_of_isGraphic (List.forall_mem_cons.mpr ⟨by decide, List.forall_mem_singleton.mpr hd⟩)
  unfold quotedCodePoint
  split
  · next h =>
    rcases h with rfl | rfl
    · exact hpair c hmark
    · exact hpair backslash (by decide)
  · split
    · exact hpair 't' (by decide)
    · split
      · exact hpair 'n' (by decide)
      · split
        · exact hpair 'r' (by decide)
        · split
          · next hprintable => exact legible_singleton.mpr hprintable
          · exact legible_numericEscape c

theorem isGraphic_quoteMark (t : Text) : (quoteMark t).IsGraphic := by
  rcases quoteMark_eq t with h | h <;> rw [h] <;> decide

/-- **A quoted text is legible**, whatever has been quoted. -/
theorem legible_quoted (t : Text) : Legible t.quoted := by
  have hmark := isGraphic_quoteMark t
  have hbody : Legible (t.flatMap (quotedCodePoint (quoteMark t))) := by
    intro d hd
    obtain ⟨c, -, hcd⟩ := List.mem_flatMap.mp hd
    exact legible_quotedCodePoint hmark c d hcd
  exact legible_append.mpr ⟨legible_cons.mpr ⟨hmark.isPrintable, hbody⟩,
    legible_singleton.mpr hmark.isPrintable⟩

/-! ### what is not in a legible text -/

variable {t : Text}

theorem Legible.notMem (h : Legible t) {c : CodePoint} (hc : c.isPrintable = false) : c ∉ t := by
  intro hmem
  rw [h c hmem] at hc
  cases hc

theorem Legible.oneLine (h : Legible t) : ∀ c ∈ lineBreaks, c ∉ t := fun c hc =>
  h.notMem (isPrintable_of_mem_lineBreaks c hc)

theorem Legible.escape_notMem (h : Legible t) : escape ∉ t :=
  h.notMem (isPrintable_control (by decide))

theorem Legible.surrogateFree (h : Legible t) : Json.SurrogateFree t := by
  intro c hc
  cases hs : c.isSurrogate with
  | false => rfl
  | true => exact absurd hc (h.notMem (isPrintable_of_isSurrogate hs))

/-! ### what is printed -/

/-- The text that has been held back. -/
def HeldBack.text : HeldBack → Text
  | .nothing => []
  | .start => [escape]
  | .parameters marks => escape :: openBracket :: marks

/-- What is printed is the text with parts of it left out. -/
theorem dropSequences_sublist (held : HeldBack) (t : Text) :
    (dropSequences held t).Sublist (held.text ++ t) := by
  fun_induction dropSequences held t with
  | case1 => exact List.Sublist.refl _
  | case2 => exact List.Sublist.refl _
  | case3 marks =>
    rw [List.append_nil]
    exact List.Sublist.refl _
  | case4 rest ih => exact ih
  | case5 c rest _ ih => exact ih.cons_cons c
  | case6 rest ih => exact ih
  | case7 rest _ ih => exact ih.cons_cons escape
  | case8 c rest _ _ ih => exact (ih.cons_cons c).cons_cons escape
  | case9 marks c rest _ ih =>
    have hmarks : (HeldBack.parameters marks).text ++ c :: rest
        = (HeldBack.parameters (marks ++ [c])).text ++ rest := by
      simp [HeldBack.text]
    rw [hmarks]
    exact ih
  | case10 marks c rest _ _ ih =>
    exact (ih.cons c).trans (List.sublist_append_right _ _)
  | case11 marks rest _ _ ih => exact ih.append_left _
  | case12 marks c rest _ _ _ ih => exact (ih.cons_cons c).append_left _

theorem mem_of_mem_printed {c : CodePoint} (h : c ∈ t.printed) : c ∈ t :=
  (dropSequences_sublist .nothing t).subset h

/-! ### the words of a line -/

/-- What holds of the backslash and of all that is read holds of the words. -/
theorem forall_mem_wordsFrom {P : CodePoint → Prop} (hback : P backslash) {state : WordState}
    {word line : Text} {ws : List Text} (hword : ∀ c ∈ word, P c) (hline : ∀ c ∈ line, P c)
    (h : wordsFrom state word line = .ok ws) : ∀ w ∈ ws, ∀ c ∈ w, P c := by
  fun_induction wordsFrom state word line generalizing ws with
  | case1 =>
    cases h
    exact List.forall_mem_nil _
  | case2 word =>
    cases h
    exact List.forall_mem_singleton.mpr hword
  | case3 | case4 | case5 | case6 => cases h
  -- a word begins, or still none does
  | case7 | case8 | case9 | case10 =>
    rename_i ih
    exact ih (List.forall_mem_nil _) (List.forall_mem_cons.mp hline).2 h
  | case11 =>
    rename_i ih
    obtain ⟨hc, hrest⟩ := List.forall_mem_cons.mp hline
    exact ih (List.forall_mem_singleton.mpr hc) hrest h
  -- a blank ends the word
  | case12 word _ rest _ ih =>
    obtain ⟨ws', h', rfl⟩ := Json.exists_of_map_eq_ok h
    have hrest := ih (List.forall_mem_nil _) (List.forall_mem_cons.mp hline).2 h'
    exact List.forall_mem_cons.mpr ⟨hword, hrest⟩
  -- the word goes on in another state
  | case13 | case14 | case15 | case17 | case19 | case20 =>
    rename_i ih
    exact ih hword (List.forall_mem_cons.mp hline).2 h
  -- the word grows
  | case16 | case18 | case21 | case22 | case23 =>
    rename_i ih
    obtain ⟨hc, hrest⟩ := List.forall_mem_cons.mp hline
    exact ih (List.forall_mem_append.mpr ⟨hword, List.forall_mem_singleton.mpr hc⟩) hrest h
  | case24 =>
    rename_i ih
    obtain ⟨hc, hrest⟩ := List.forall_mem_cons.mp hline
    have hpair := List.forall_mem_cons.mpr ⟨hback, List.forall_mem_singleton.mpr hc⟩
    exact ih (List.forall_mem_append.mpr ⟨hword, hpair⟩) hrest h

theorem forall_mem_words {P : CodePoint → Prop} (hback : P backslash) {line : Text}
    {ws : List Text} (hline : ∀ c ∈ line, P c) (h : words line = .ok ws) :
    ∀ w ∈ ws, ∀ c ∈ w, P c :=
  forall_mem_wordsFrom hback (List.forall_mem_nil _) hline h

end Text

end SelectorForge
