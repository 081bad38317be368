import SelectorForge.CommandLine.Run

/-!
# Spelled operands

An operand of `combine` is one argument, and its words come from splitting it. Any list of words can
be spelled so that they come out again: a word as it is, where nothing in it means anything to the
splitting, or any word at all between apostrophes, and blanks between the words.

* `Text.SpellsWord`, `Text.SpellsLine`   spellings of a word and of a list of words;
* `Text.SpellsLine.words`                splitting gives the words back;
* `CommandLine.combine_spelled`          so `combine` joins the selectors of the words.
-/

namespace SelectorForge

namespace Text

open CodePoint

/-! ### spellings -/

/-- What a bare word can hold. -/
def IsOrdinary (c : CodePoint) : Prop :=
  isWordBlank c = false ∧ c ≠ backslash ∧ c ≠ apostrophe ∧ c ≠ quotationMark

instance (c : CodePoint) : Decidable (IsOrdinary c) :=
  inferInstanceAs (Decidable (_ ∧ _ ∧ _ ∧ _))

/-- A word that means to the splitting what it is. -/
def Bare (word : Text) : Prop := word ≠ [] ∧ ∀ c ∈ word, IsOrdinary c

instance (word : Text) : Decidable (Bare word) :=
  @instDecidableAnd _ _ _ (List.decidableBAll IsOrdinary word)

/-- Between apostrophes all but the apostrophe is itself: there the word is left, and it goes on
behind an apostrophe between quotation marks. -/
def spelledCodePoint (c : CodePoint) : Text :=
  if c = apostrophe then [apostrophe, quotationMark, apostrophe, quotationMark, apostrophe]
  else [c]

def betweenApostrophes (word : Text) : Text :=
  apostrophe :: (word.flatMap spelledCodePoint ++ [apostrophe])

inductive SpellsWord (word : Text) : Text → Prop
  | bare (h : Bare word) : SpellsWord word word
  | quoted : SpellsWord word (betweenApostrophes word)

def WordBlanks (t : Text) : Prop := ∀ c ∈ t, isWordBlank c = true

/-- Words with blanks between them. -/
inductive SpellsWords : List Text → Text → Prop
  | nil : SpellsWords [] []
  | last {word t : Text} (h : SpellsWord word t) : SpellsWords [word] t
  | more {word next : Text} {words : List Text} {t gap rest : Text} (h : SpellsWord word t)
    (hgap : WordBlanks gap) (hne : gap ≠ []) (hs : SpellsWords (next :: words) rest) :
    SpellsWords (word :: next :: words) (t ++ (gap ++ rest))

/-- There may be blanks at both ends of a line. -/
inductive SpellsLine (words : List Text) : Text → Prop
  | mk {lead t trail : Text} (hlead : WordBlanks lead) (h : SpellsWords words t)
    (htrail : WordBlanks trail) : SpellsLine words (lead ++ (t ++ trail))

/-! ### one word -/

theorem wordsFrom_ordinary {c : CodePoint} (h : IsOrdinary c) (word rest : Text) :
    wordsFrom .bare word (c :: rest) = wordsFrom .bare (word ++ [c]) rest := by
  obtain ⟨hblank, hback, happ, hquot⟩ := h
  rw [wordsFrom, hblank, if_neg Bool.false_ne_true, if_neg hback, if_neg happ, if_neg hquot]

theorem wordsFrom_bare_append {t : Text} (h : ∀ c ∈ t, IsOrdinary c) (word rest : Text) :
    wordsFrom .bare word (t ++ rest) = wordsFrom .bare (word ++ t) rest := by
  induction t generalizing word with
  | nil => rw [List.nil_append, List.append_nil]
  | cons c t ih =>
    obtain ⟨hfirst, hrest⟩ := List.forall_mem_cons.mp h
    rw [List.cons_append, wordsFrom_ordinary hfirst, ih hrest, List.append_assoc]
    rfl

/-- An apostrophe in the word: the reader leaves the apostrophes, takes one between quotation marks
and is between apostrophes again. -/
theorem wordsFrom_single_apostrophe (word rest : Text) :
    wordsFrom .single word (spelledCodePoint apostrophe ++ rest)
      = wordsFrom .single (word ++ [apostrophe]) rest := by
  rw [spelledCodePoint, if_pos rfl]
  rfl

theorem wordsFrom_single_append (t word rest : Text) :
    wordsFrom .single word (t.flatMap spelledCodePoint ++ apostrophe :: rest)
      = wordsFrom .bare (word ++ t) rest := by
  induction t generalizing word with
  | nil =>
    show wordsFrom .single word (apostrophe :: rest) = _
    rw [wordsFrom, if_pos rfl, List.append_nil]
  | cons c t ih =>
    rw [List.flatMap_cons, List.append_assoc]
    have hnext : word ++ [c] ++ t = word ++ c :: t := List.append_assoc word [c] t
    by_cases hc : c = apostrophe
    · rw [hc, wordsFrom_single_apostrophe, ih, ← hc, hnext]
    · rw [spelledCodePoint, if_neg hc, List.singleton_append, wordsFrom, if_neg hc, ih, hnext]

/-- Behind a spelled word the reader has read the word, and may read on in it. -/
theorem SpellsWord.wordsFrom {word t : Text} (h : SpellsWord word t) (rest : Text) :
    wordsFrom .between [] (t ++ rest) = Text.wordsFrom .bare word rest := by
  cases h with
  | bare h =>
    cases word with
    | nil => exact absurd rfl h.1
    | cons c word =>
      obtain ⟨hfirst, hrest⟩ := List.forall_mem_cons.mp h.2
      obtain ⟨hblank, hback, happ, hquot⟩ := hfirst
      rw [List.cons_append, Text.wordsFrom, hblank, if_neg Bool.false_ne_true, if_neg hback,
        if_neg happ, if_neg hquot, wordsFrom_bare_append hrest]
      rfl
  | quoted =>
    have hstart : Text.wordsFrom .between [] (betweenApostrophes word ++ rest)
        = Text.wordsFrom .single [] (word.flatMap spelledCodePoint ++ [apostrophe] ++ rest) := rfl
    rw [hstart, List.append_assoc, List.singleton_append, wordsFrom_single_append, List.nil_append]

/-! ### blanks -/

theorem wordsFrom_between_append {gap : Text} (h : WordBlanks gap) (rest : Text) :
    wordsFrom .between [] (gap ++ rest) = wordsFrom .between [] rest := by
  induction gap with
  | nil => rfl
  | cons c gap ih =>
    obtain ⟨hfirst, hrest⟩ := List.forall_mem_cons.mp h
    rw [List.cons_append, wordsFrom, if_pos hfirst, ih hrest]

/-- Blanks end a word. -/
theorem wordsFrom_bare_gap {gap : Text} (h : WordBlanks gap) (hne : gap ≠ []) (word rest : Text) :
    wordsFrom .bare word (gap ++ rest) = (wordsFrom .between [] rest).map (word :: ·) := by
  cases gap with
  | nil => exact absurd rfl hne
  | cons c gap =>
    obtain ⟨hfirst, hrest⟩ := List.forall_mem_cons.mp h
    rw [List.cons_append, wordsFrom, if_pos hfirst, wordsFrom_between_append hrest]

theorem wordsFrom_bare_trail {trail : Text} (h : WordBlanks trail) (word : Text) :
    wordsFrom .bare word trail = .ok [word] := by
  cases trail with
  | nil => rfl
  | cons c trail =>
    have hgap := wordsFrom_bare_gap h (List.cons_ne_nil c trail) word []
    rw [List.append_nil] at hgap
    rw [hgap]
    rfl

/-! ### lines -/

theorem SpellsWords.wordsFrom {words : List Text} {t : Text} (h : SpellsWords words t)
    {trail : Text} (htrail : WordBlanks trail) :
    wordsFrom .between [] (t ++ trail) = .ok words := by
  induction h with
  | nil =>
    have hend := wordsFrom_between_append htrail []
    rwa [List.append_nil] at hend
  | last h => rw [h.wordsFrom, wordsFrom_bare_trail htrail]
  | more h hgap hne _ ih =>
    rw [List.append_assoc, List.append_assoc, h.wordsFrom, wordsFrom_bare_gap hgap hne, ih]
    rfl

/-- **Splitting gives the spelled words back.** -/
theorem SpellsLine.words {words : List Text} {line : Text} (h : SpellsLine words line) :
    Text.words line = .ok words := by
  obtain ⟨hlead, h, htrail⟩ := h
  rw [Text.words, wordsFrom_between_append hlead, h.wordsFrom htrail]

end Text

namespace CommandLine

open Text (SpellsLine)

theorem operand_of_words_ok {words : List Text} {line : Text} (h : Text.words line = .ok words)
    (config : Config) :
    operand config line = (Compound.build config words).mapError .fragments := by
  rw [operand, h]
  rfl

theorem operand_of_spellsLine {words : List Text} {line : Text} (h : SpellsLine words line)
    (config : Config) :
    operand config line = (Compound.build config words).mapError .fragments :=
  operand_of_words_ok h.words config

/-- The arguments of a run, with the flags closed before the operands. -/
def combineArguments (normalized : Bool) (left combinator right : Text) : List Text :=
  ("combine" : Text) :: ((if normalized then [normalizedFlag] else [])
    ++ [endOfFlags, left, combinator, right])

theorem run_combineArguments (normalized : Bool) (left combinator right : Text) :
    run (combineArguments normalized left combinator right)
      = combine (configOf normalized) left combinator right := by
  cases normalized <;> rfl

/-- **Spelled operands are joined as the selectors of their words.** The first operand that is no
selector ends the run; otherwise the combination of a builder is printed. -/
theorem combine_spelled {ls rs : List Text} {left right : Text} (hl : SpellsLine ls left)
    (hr : SpellsLine rs right) (combinator : Text) (normalized : Bool) :
    run (combineArguments normalized left combinator right)
      = match Compound.build (configOf normalized) ls, Compound.build (configOf normalized) rs with
        | .error e, _ | .ok _, .error e =>
          { exit := 1, out := [], err := (("Error: " : Text) ++ e.message).printed ++ newline }
        | .ok l, .ok r =>
          let c := (Builder.mk (configOf normalized)).combine l combinator r
          { exit := 0, out := c.render.printed ++ newline, err := [] } := by
  rw [run_combineArguments, combine, combination, operand_of_spellsLine hl,
    operand_of_spellsLine hr]
  cases Compound.build (configOf normalized) ls with
  | error e => rfl
  | ok l => cases Compound.build (configOf normalized) rs <;> rfl

/-- A word with a blank, an apostrophe and a backslash, next to a bare one; no word at all. -/
theorem combine_spelled_apostrophe :
    let left : Text := "\x09'id=it'\x22'\x22's a\\' class=b "
    SpellsLine ["id=it's a\\", "class=b"] left ∧ SpellsLine [] "\x0a" ∧
      run (combineArguments true left ">" "\x0a") =
        { exit := 0, out := ("#it's a\\.b>" : Text).printed ++ newline, err := [] } := by
  have hblank : ∀ c, Text.isWordBlank c = true → Text.WordBlanks [c] := fun c hc =>
    List.forall_mem_singleton.mpr hc
  have hid : Text.SpellsWord "id=it's a\\" "'id=it'\x22'\x22's a\\'" := .quoted
  have hclass : Text.SpellsWord "class=b" "class=b" :=
    .bare (by decide)
  have hl : SpellsLine ["id=it's a\\", "class=b"] "\x09'id=it'\x22'\x22's a\\' class=b " :=
    .mk (hblank CodePoint.tab rfl)
      (.more hid (hblank CodePoint.space rfl) (List.cons_ne_nil _ _) (.last hclass))
      (hblank CodePoint.space rfl)
  have hr : SpellsLine [] "\x0a" :=
    .mk (hblank CodePoint.lineFeed rfl) .nil fun c hc => absurd hc List.not_mem_nil
  refine ⟨hl, hr, ?_⟩
  rw [combine_spelled hl hr]
  rfl

end CommandLine

end SelectorForge
