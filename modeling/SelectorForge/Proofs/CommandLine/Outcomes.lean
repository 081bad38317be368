import SelectorForge.CommandLine.Capture
import SelectorForge.Proofs.CommandLine.Operand
import SelectorForge.Proofs.Selector.Build
import SelectorForge.Proofs.Selector.Rendering
import SelectorForge.Proofs.Text.Legible

/-!
# The two outcomes of a command

A command either prints a selector or fails with one line, which is legible whatever stands in its
operands. It prints exactly if every operand makes a selector, and it fails with the message of the
first one that makes none.

* `Outcome.Prints`, `Outcome.Fails`   the two outcomes;
* `Outcome.Fails.captured_eq`         nothing of a failure is lost where it is caught;
* `Buildable`                         the operands that make a selector;
* `OperandError.legible_message`      messages are legible;
* `two_outcomes`                      what `build` and `combine` do.
-/

namespace SelectorForge

open Json (SurrogateFree surrogateFree_append)

/-! ### messages -/

namespace Fragment

theorem Error.legible_message (e : Fragment.Error) : e.message.Legible := by
  cases e with
  | missingEquals word =>
    have hstart : Text.Legible "Expected kind=value, got " :=
      Text.legible_of_isGraphic (Text.forall_mem_of_all (by decide))
    exact Text.legible_append.mpr ⟨hstart, Text.legible_quoted word⟩
  | unknownKind kind =>
    have hstart : Text.Legible "Unknown fragment kind: " :=
      Text.legible_of_isGraphic (Text.forall_mem_of_all (by decide))
    exact Text.legible_append.mpr ⟨hstart, Text.legible_quoted kind⟩

end Fragment

theorem Rejection.legible_message (r : Rejection) : r.message.Legible := by
  have horder : Rejection.orderMessage.Legible :=
    Text.legible_of_isGraphic (Text.forall_mem_of_all (by decide))
  have hduplicate : Rejection.duplicateMessage.Legible :=
    Text.legible_of_isGraphic (Text.forall_mem_of_all (by decide))
  cases r with
  | outOfOrder => exact horder
  | duplicate => exact hduplicate

theorem BuildError.legible_message (e : BuildError) : e.message.Legible := by
  cases e with
  | malformed error => exact error.legible_message
  | rejected rejection => exact rejection.legible_message

/-! ### texts without surrogates -/

namespace Fragment

theorem surrogateFree_text {f : Fragment} (h : SurrogateFree f.value) : SurrogateFree f.text := by
  cases f with
  | mk stage value =>
    have hmark : ∀ (c : Char) {t : Text}, SurrogateFree t → SurrogateFree ((c : CodePoint) :: t) :=
      fun c t ht => List.forall_mem_cons.mpr ⟨Json.isSurrogate_ofChar c, ht⟩
    cases stage with
    | element => exact h
    | id => exact hmark '#' h
    | styleClass => exact hmark '.' h
    | attr => exact hmark '[' (surrogateFree_append.mpr ⟨h, hmark ']' (List.forall_mem_nil _)⟩)
    | pseudoClass => exact hmark ':' h
    | pseudoElement => exact hmark ':' (hmark ':' h)

theorem surrogateFree_inOrder {separator : Text} (hseparator : SurrogateFree separator)
    {fs : List Fragment} (hfs : ∀ f ∈ fs, SurrogateFree f.value) (behindAttribute : Bool) :
    SurrogateFree (inOrder separator behindAttribute fs) := by
  induction fs generalizing behindAttribute with
  | nil => exact List.forall_mem_nil _
  | cons f fs ih =>
    obtain ⟨hf, hrest⟩ := List.forall_mem_cons.mp hfs
    have hglue : SurrogateFree (if behindAttribute ∧ f.isAttribute then separator else []) := by
      split
      · exact hseparator
      · exact List.forall_mem_nil _
    rw [inOrder_cons, addition]
    exact surrogateFree_append.mpr
      ⟨surrogateFree_append.mpr ⟨hglue, surrogateFree_text hf⟩, ih hrest f.isAttribute⟩

theorem WrittenAs.surrogateFree {f : Fragment} {word : Text} (h : f.WrittenAs word)
    (hword : SurrogateFree word) : SurrogateFree f.value := by
  obtain ⟨kind, rfl, -, -⟩ := h
  exact (List.forall_mem_cons.mp (surrogateFree_append.mp hword).2).2

theorem surrogateFree_of_forall₂ {fs : List Fragment} {words : List Text}
    (h : List.Forall₂ WrittenAs fs words) (hwords : ∀ word ∈ words, SurrogateFree word) :
    ∀ f ∈ fs, SurrogateFree f.value := by
  induction h with
  | nil => exact List.forall_mem_nil _
  | cons hf _ ih =>
    obtain ⟨hword, hrest⟩ := List.forall_mem_cons.mp hwords
    exact List.forall_mem_cons.mpr ⟨hf.surrogateFree hword, ih hrest⟩

end Fragment

/-- The text of a selector has no surrogates if its words and the separator have none. -/
theorem Compound.surrogateFree_render_of_build {config : Config} {words : List Text} {s : Compound}
    (h : build config words = .ok s) (hseparator : Json.SurrogateFree config.separator)
    (hwords : ∀ word ∈ words, Json.SurrogateFree word) : Json.SurrogateFree s.render := by
  obtain ⟨-, hconfig, hwritten⟩ := build_eq_ok h
  rw [render_eq_inOrder, hconfig]
  exact Fragment.surrogateFree_inOrder hseparator
    (Fragment.surrogateFree_of_forall₂ hwritten hwords) false

theorem Combination.surrogateFree_token {combinator : Text} (h : SurrogateFree combinator)
    (pad : Bool) : SurrogateFree (token pad combinator) := by
  have hspace : SurrogateFree [CodePoint.space] := List.forall_mem_singleton.mpr rfl
  cases pad with
  | true =>
    rw [token_true]
    exact surrogateFree_append.mpr ⟨List.forall_mem_cons.mpr ⟨rfl, h⟩, hspace⟩
  | false =>
    rw [token_false, tightToken]
    split
    · exact hspace
    · obtain ⟨⟨lead, trail, heq, -, -⟩, -, -⟩ := Text.strips_trim combinator
      rw [heq] at h
      exact (surrogateFree_append.mp (surrogateFree_append.mp h).2).1

namespace CommandLine

/-! ### the two outcomes -/

/-- A selector is printed as a line on the first output, all of which can be encoded. -/
structure Outcome.Prints (o : Outcome) (t : Text) : Prop where
  exit : o.exit = 0
  out : o.out = t.printed ++ newline
  err : o.err = []
  encodable : SurrogateFree o.out

/-- The run fails with a line on the second output. The message is given to it as it is: it holds
nothing that ends the line, begins a sequence for the terminal or cannot be encoded. -/
structure Outcome.Fails (o : Outcome) (message : Text) : Prop where
  exit : o.exit = 1
  out : o.out = []
  err : o.err = ("Error: " : Text) ++ message ++ newline
  oneLine : ∀ c ∈ CodePoint.lineBreaks, c ∉ message
  noSequence : CodePoint.escape ∉ message
  encodable : SurrogateFree message

theorem Outcome.Fails.exit_ne_zero {o : Outcome} {message : Text} (h : o.Fails message) :
    o.exit ≠ 0 := by
  rw [h.exit]
  exact Nat.one_ne_zero

theorem prints_line {t : Text} (h : SurrogateFree t) : (Outcome.line t).Prints t := by
  have hprinted : SurrogateFree t.printed := fun c hc => h c (Text.mem_of_mem_printed hc)
  exact ⟨rfl, rfl, rfl, surrogateFree_append.mpr ⟨hprinted, List.forall_mem_singleton.mpr rfl⟩⟩

theorem fails_failure {message : Text} (h : message.Legible) :
    (Outcome.failure message).Fails message := by
  have hstart : Text.Legible "Error: " :=
    Text.legible_of_isGraphic (Text.forall_mem_of_all (by decide))
  have hline : (("Error: " : Text) ++ message).Legible := Text.legible_append.mpr ⟨hstart, h⟩
  refine ⟨rfl, rfl, ?_, h.oneLine, h.escape_notMem, h.surrogateFree⟩
  show (("Error: " : Text) ++ message).printed ++ newline = _
  rw [Text.printed_eq_self hline.escape_notMem]

/-- Both outputs are caught if the first one can be encoded. -/
theorem Outcome.captured_of_surrogateFree {o : Outcome} (h : SurrogateFree o.out) :
    o.captured
      = { o with out := o.out.foldLineEnds, err := o.err.spellSurrogates.foldLineEnds } := by
  have hout : ¬ o.out.any CodePoint.isSurrogate = true := by
    rw [List.any_eq_true]
    rintro ⟨c, hc, hsurrogate⟩
    rw [h c hc] at hsurrogate
    cases hsurrogate
  rw [Outcome.captured, if_neg hout]

/-- What is printed is caught as it is, up to carriage returns at the ends of its lines. -/
theorem Outcome.Prints.captured_eq {o : Outcome} {t : Text} (h : o.Prints t) :
    o.captured = { o with out := o.out.foldLineEnds } := by
  rw [captured_of_surrogateFree h.encodable, h.err]
  rfl

/-- A failure is caught as it is. -/
theorem Outcome.Fails.captured_eq {o : Outcome} {message : Text} (h : o.Fails message) :
    o.captured = o := by
  have hout : SurrogateFree o.out := by
    rw [h.out]
    exact List.forall_mem_nil _
  have herr : SurrogateFree o.err := by
    rw [h.err]
    exact surrogateFree_append.mpr ⟨surrogateFree_append.mpr
      ⟨Json.surrogateFree_ofString "Error: ", h.encodable⟩, List.forall_mem_singleton.mpr rfl⟩
  have hreturn : CodePoint.carriageReturn ∉ o.err := by
    rw [h.err, List.mem_append, List.mem_append, not_or, not_or]
    exact ⟨⟨by decide, h.oneLine _ (by decide)⟩, by decide⟩
  rw [captured_of_surrogateFree hout, Text.spellSurrogates_eq_self herr,
    Text.foldLineEnds_eq_self hreturn, h.out]
  show Outcome.mk o.exit [] o.err = o
  rw [← h.out]

theorem surrogateFree_separator (normalized : Bool) :
    SurrogateFree (configOf normalized).separator := by
  cases normalized with
  | true => exact List.forall_mem_nil _
  | false => exact List.forall_mem_singleton.mpr rfl

/-! ### one operand -/

theorem OperandError.legible_message (e : OperandError) : e.message.Legible := by
  cases e with
  | words error =>
    cases error with
    | noClosingQuotation => exact Text.legible_of_isGraphic (Text.forall_mem_of_all (by decide))
    | noEscapedCodePoint => exact Text.legible_of_isGraphic (Text.forall_mem_of_all (by decide))
  | fragments error => exact error.legible_message

/-- The operands that split into words of a selector. -/
def Buildable (line : Text) : Prop := ∃ words, Text.words line = .ok words ∧ Admissible words

theorem operand_of_words_error {line : Text} {e : Text.WordError}
    (h : Text.words line = .error e) (config : Config) :
    operand config line = .error (.words e) := by
  rw [operand, h]
  rfl

theorem operand_eq_ok {config : Config} {line : Text} {s : Compound}
    (h : operand config line = .ok s) :
    ∃ words, Text.words line = .ok words ∧ Compound.build config words = .ok s := by
  cases hw : Text.words line with
  | error e =>
    rw [operand_of_words_error hw] at h
    cases h
  | ok words =>
    rw [operand_of_words_ok hw] at h
    refine ⟨words, rfl, ?_⟩
    cases hb : Compound.build config words with
    | error e =>
      rw [hb] at h
      cases h
    | ok s' =>
      rw [hb] at h
      cases h
      rfl

theorem operand_isOk_iff (config : Config) (line : Text) :
    (∃ s, operand config line = .ok s) ↔ Buildable line := by
  constructor
  · rintro ⟨s, h⟩
    obtain ⟨words, hw, hb⟩ := operand_eq_ok h
    exact ⟨words, hw, (Compound.build_isOk_iff config words).mp ⟨s, hb⟩⟩
  · rintro ⟨words, hw, hadmissible⟩
    obtain ⟨s, hb⟩ := (Compound.build_isOk_iff config words).mpr hadmissible
    refine ⟨s, ?_⟩
    rw [operand_of_words_ok hw, hb]
    rfl

theorem not_buildable_of_error {config : Config} {line : Text} {e : OperandError}
    (h : operand config line = .error e) : ¬ Buildable line := by
  intro hbuildable
  obtain ⟨s, hs⟩ := (operand_isOk_iff config line).mpr hbuildable
  rw [h] at hs
  cases hs

theorem surrogateFree_render_of_operand {normalized : Bool} {line : Text} {s : Compound}
    (h : operand (configOf normalized) line = .ok s) (hline : SurrogateFree line) :
    SurrogateFree s.render := by
  obtain ⟨words, hw, hb⟩ := operand_eq_ok h
  have hback : CodePoint.backslash.isSurrogate = false := rfl
  have hwords : ∀ word ∈ words, SurrogateFree word := Text.forall_mem_words hback hline hw
  exact Compound.surrogateFree_render_of_build hb (surrogateFree_separator normalized) hwords

/-! ### two operands -/

section

variable {config : Config} {left combinator right : Text} {l r : Compound} {e : OperandError}

theorem combine_of_ok (hl : operand config left = .ok l) (hr : operand config right = .ok r) :
    combine config left combinator right
      = .line (l.render ++ Combination.token config.pad combinator ++ r.render) := by
  rw [combine, combination, hl, hr]
  rfl

theorem combine_of_left_error (h : operand config left = .error e) (combinator right : Text) :
    combine config left combinator right = .failure e.message := by
  rw [combine, combination, h]
  rfl

theorem combine_of_right_error (hl : operand config left = .ok l)
    (hr : operand config right = .error e) (combinator : Text) :
    combine config left combinator right = .failure e.message := by
  rw [combine, combination, hl, hr]
  rfl

end

/-! ### runs -/

/-- The arguments of a run of `build`, with the flags closed before the fragments. -/
def buildArguments (normalized : Bool) (fragments : List Text) : List Text :=
  ("build" : Text) :: ((if normalized then [normalizedFlag] else []) ++ endOfFlags :: fragments)

theorem run_buildArguments (normalized : Bool) {fragments : List Text} (h : fragments ≠ []) :
    run (buildArguments normalized fragments) = build (configOf normalized) fragments := by
  cases fragments with
  | nil => exact absurd rfl h
  | cons word words => cases normalized <;> rfl

/-- What the left operand fails with does not depend on what comes after it. -/
theorem fails_of_left_error {normalized : Bool} {left : Text} {e : OperandError}
    (h : operand (configOf normalized) left = .error e) (combinator right : Text) :
    (run (combineArguments normalized left combinator right)).Fails e.message := by
  rw [run_combineArguments, combine_of_left_error h]
  exact fails_failure e.legible_message

/-- What the right operand fails with does not depend on what is in front of it. -/
theorem fails_of_right_error {normalized : Bool} {left right : Text} {e : OperandError}
    (hleft : Buildable left) (h : operand (configOf normalized) right = .error e)
    (combinator : Text) :
    (run (combineArguments normalized left combinator right)).Fails e.message := by
  obtain ⟨l, hl⟩ := (operand_isOk_iff (configOf normalized) left).mpr hleft
  rw [run_combineArguments, combine_of_right_error hl h]
  exact fails_failure e.legible_message

/-- **A command prints its selector or fails with one line.** It prints exactly if its operands make
selectors, and the first operand that makes none decides how it fails. -/
theorem two_outcomes (normalized : Bool) :
    (∀ fragments : List Text, fragments ≠ [] → (∀ word ∈ fragments, SurrogateFree word) →
      let o := run (buildArguments normalized fragments)
      ((∃ s, Compound.build (configOf normalized) fragments = .ok s ∧ o.Prints s.render) ∨
        ∃ e, Compound.build (configOf normalized) fragments = .error e ∧ o.Fails e.message) ∧
      (o.exit = 0 ↔ Admissible fragments)) ∧
    (∀ left combinator right : Text,
      SurrogateFree left → SurrogateFree combinator → SurrogateFree right →
      let o := run (combineArguments normalized left combinator right)
      ((∃ l r, operand (configOf normalized) left = .ok l ∧
          operand (configOf normalized) right = .ok r ∧
          o.Prints (l.render ++ Combination.token (configOf normalized).pad combinator
            ++ r.render)) ∨
        ∃ e, (operand (configOf normalized) left = .error e ∨
          Buildable left ∧ operand (configOf normalized) right = .error e) ∧
          o.Fails e.message) ∧
      (o.exit = 0 ↔ Buildable left ∧ Buildable right)) ∧
    (∀ left e, operand (configOf normalized) left = .error e → ∀ combinator right,
      (run (combineArguments normalized left combinator right)).Fails e.message) ∧
    ∀ right e, operand (configOf normalized) right = .error e → ∀ left combinator,
      Buildable left → (run (combineArguments normalized left combinator right)).Fails e.message := by
  refine ⟨?build, ?combine, fun _ _ h => fails_of_left_error h,
    fun _ _ h _ combinator hleft => fails_of_right_error hleft h combinator⟩
  case build =>
    intro fragments hne hfree o
    have hrun : o = build (configOf normalized) fragments := run_buildArguments normalized hne
    rw [hrun, build]
    cases hb : Compound.build (configOf normalized) fragments with
    | ok s =>
      have hs := Compound.surrogateFree_render_of_build hb (surrogateFree_separator normalized) hfree
      have hadmissible := (Compound.build_isOk_iff _ fragments).mp ⟨s, hb⟩
      exact ⟨Or.inl ⟨s, rfl, prints_line hs⟩, iff_of_true rfl hadmissible⟩
    | error e =>
      have hnot : ¬ Admissible fragments := by
        intro hadmissible
        obtain ⟨s, hs⟩ := (Compound.build_isOk_iff (configOf normalized) fragments).mpr hadmissible
        rw [hb] at hs
        cases hs
      have hfails := fails_failure e.legible_message
      exact ⟨Or.inr ⟨e, rfl, hfails⟩, iff_of_false hfails.exit_ne_zero hnot⟩
  case combine =>
    intro left combinator right hfreeLeft hfreeCombinator hfreeRight o
    cases hl : operand (configOf normalized) left with
    | error e =>
      have ho : o.Fails e.message := fails_of_left_error hl combinator right
      have hnot : ¬ (Buildable left ∧ Buildable right) := fun h => not_buildable_of_error hl h.1
      exact ⟨Or.inr ⟨e, Or.inl rfl, ho⟩, iff_of_false ho.exit_ne_zero hnot⟩
    | ok l =>
      have hbuildable := (operand_isOk_iff _ left).mp ⟨l, hl⟩
      cases hr : operand (configOf normalized) right with
      | error e =>
        have ho : o.Fails e.message := fails_of_right_error hbuildable hr combinator
        have hnot : ¬ (Buildable left ∧ Buildable right) := fun h => not_buildable_of_error hr h.2
        exact ⟨Or.inr ⟨e, Or.inr ⟨hbuildable, rfl⟩, ho⟩, iff_of_false ho.exit_ne_zero hnot⟩
      | ok r =>
        have hfree : SurrogateFree (l.render
            ++ Combination.token (configOf normalized).pad combinator ++ r.render) :=
          surrogateFree_append.mpr ⟨surrogateFree_append.mpr
            ⟨surrogateFree_render_of_operand hl hfreeLeft,
              Combination.surrogateFree_token hfreeCombinator _⟩,
            surrogateFree_render_of_operand hr hfreeRight⟩
        have ho : o = .line (l.render
            ++ Combination.token (configOf normalized).pad combinator ++ r.render) :=
          (run_combineArguments normalized left combinator right).trans (combine_of_ok hl hr)
        have hprints := prints_line hfree
        rw [← ho] at hprints
        exact ⟨Or.inl ⟨l, r, rfl, rfl, hprints⟩,
          iff_of_true hprints.exit ⟨hbuildable, (operand_isOk_iff _ right).mp ⟨r, hr⟩⟩⟩

/-- An escape and a line feed in the operands: the one is printed as part of a sequence that is left
out, the other one is spelled in the message. -/
theorem two_outcomes_lineFeed :
    let fragments : List Text := ["element=a", "id=\x1b[1mb"]
    let broken : Text := "'bo\x0agus=x'"
    (fragments ≠ [] ∧ (∀ word ∈ fragments, SurrogateFree word) ∧
      ((run (buildArguments true fragments)).exit = 0 ↔ Admissible fragments)) ∧
    (SurrogateFree "class='b c'" ∧ SurrogateFree ">" ∧ SurrogateFree "" ∧
      ((run (combineArguments true "class='b c'" ">" "")).exit = 0
        ↔ Buildable "class='b c'" ∧ Buildable "")) ∧
    operand .normalized broken
      = .error (.fragments (.malformed (.unknownKind "bo\x0agus"))) ∧
    Buildable "" ∧
    ∀ combinator right,
      (run (combineArguments true broken combinator right)).Fails
        "Unknown fragment kind: 'bo\x5cngus'" ∧
      (run (combineArguments true "" combinator broken)).Fails
        "Unknown fragment kind: 'bo\x5cngus'" := by
  intro fragments broken
  have hne : fragments ≠ [] := List.cons_ne_nil _ _
  have hfree : ∀ word ∈ fragments, SurrogateFree word :=
    List.forall_mem_cons.mpr ⟨Json.surrogateFree_ofString "element=a",
      List.forall_mem_singleton.mpr (Json.surrogateFree_ofString "id=\x1b[1mb")⟩
  have hleft := Json.surrogateFree_ofString "class='b c'"
  have hcombinator := Json.surrogateFree_ofString ">"
  have hright := Json.surrogateFree_ofString ""
  have herror : operand .normalized broken
      = .error (.fragments (.malformed (.unknownKind "bo\x0agus"))) := rfl
  have hempty : Buildable "" := ⟨[], rfl, admissible_nil⟩
  obtain ⟨hbuild, hcombine, hfailLeft, hfailRight⟩ := two_outcomes true
  refine ⟨⟨hne, hfree, (hbuild fragments hne hfree).2⟩,
    ⟨hleft, hcombinator, hright, (hcombine _ _ _ hleft hcombinator hright).2⟩, herror, hempty, ?_⟩
  intro combinator right
  have hmessage : (OperandError.fragments (.malformed (.unknownKind "bo\x0agus"))).message
      = ("Unknown fragment kind: 'bo\x5cngus'" : Text) := by decide +kernel
  rw [← hmessage]
  exact ⟨hfailLeft broken _ herror combinator right,
    hfailRight broken _ herror "" combinator hempty⟩

end CommandLine

end SelectorForge
