import SelectorForge.Proofs.Store.Anywhere
import SelectorForge.Proofs.Text.Legible

/-!
# One compact line

The text of a value is one line of printable ASCII. A reader that knows nothing of documents but
where a string literal begins and where it ends is not led astray by it: every literal is closed,
spaces are found in literals only, and the brackets and braces outside of literals are nested.

* `Lexer.after`, `Lexer.bare`   where such a reader stands, what it has read outside of literals;
* `Nested`                      brackets and braces that are closed in turn;
* `Json.Compact`                what holds of the texts of documents;
* `Json.compact_literal`        literals, whatever is written in them;
* `Json.compact_render`         documents;
* `Store.toJson_compact`        values.
-/

namespace SelectorForge

open CodePoint

/-! ### literals in a text -/

/-- Where a reader stands: outside of literals, in a literal, or in one behind a backslash that has
not been used up. -/
inductive Lexer
  | outside
  | inside
  | escaped
deriving DecidableEq, Repr

namespace Lexer

def next : Lexer → CodePoint → Lexer
  | .outside, c => if c = quotationMark then .inside else .outside
  | .inside, c =>
    if c = backslash then .escaped else if c = quotationMark then .outside else .inside
  | .escaped, _ => .inside

def after (s : Lexer) (t : Text) : Lexer := t.foldl next s

/-- What is read outside of literals; their quotation marks belong to them. -/
def bare : Lexer → Text → Text
  | _, [] => []
  | .outside, c :: t => if c = quotationMark then bare .inside t else c :: bare .outside t
  | .inside, c :: t => bare (next .inside c) t
  | .escaped, _ :: t => bare .inside t

theorem after_cons (s : Lexer) (c : CodePoint) (t : Text) :
    s.after (c :: t) = (s.next c).after t := rfl

theorem after_append (s : Lexer) (t u : Text) : s.after (t ++ u) = (s.after t).after u :=
  List.foldl_append

theorem bare_nil (s : Lexer) : s.bare [] = [] := by
  cases s <;> rfl

theorem bare_append (s : Lexer) (t u : Text) :
    s.bare (t ++ u) = s.bare t ++ (s.after t).bare u := by
  induction t generalizing s with
  | nil => rw [bare_nil]; rfl
  | cons c t ih =>
    rw [List.cons_append, after_cons]
    cases s with
    | outside =>
      by_cases hc : c = quotationMark
      · simp only [bare, next, if_pos hc, ih]
      · simp only [bare, next, if_neg hc, ih, List.cons_append]
    | inside => exact ih _
    | escaped => exact ih _

theorem next_inside {c : CodePoint} (hq : c ≠ quotationMark) (hb : c ≠ backslash) :
    next .inside c = .inside := by
  rw [next, if_neg hb, if_neg hq]

/-- From one place to another, while a text is read outside of literals. -/
structure Reads (s : Lexer) (t : Text) (s' : Lexer) (b : Text) : Prop where
  after_eq : s.after t = s'
  bare_eq : s.bare t = b

theorem Reads.append {s s' s'' : Lexer} {t u b b' : Text} (h : Reads s t s' b)
    (h' : Reads s' u s'' b') : Reads s (t ++ u) s'' (b ++ b') where
  after_eq := by rw [after_append, h.after_eq, h'.after_eq]
  bare_eq := by rw [bare_append, h.after_eq, h.bare_eq, h'.bare_eq]

theorem reads_outside {t : Text} (h : quotationMark ∉ t) : Reads .outside t .outside t := by
  induction t with
  | nil => exact ⟨rfl, rfl⟩
  | cons c t ih =>
    simp only [List.mem_cons, not_or] at h
    have hc : c ≠ quotationMark := Ne.symm h.1
    have hrest := ih h.2
    constructor
    · rw [after_cons, next, if_neg hc, hrest.after_eq]
    · rw [bare, if_neg hc, hrest.bare_eq]

theorem reads_inside {t : Text} (h : ∀ c ∈ t, c ≠ quotationMark ∧ c ≠ backslash) :
    Reads .inside t .inside [] := by
  induction t with
  | nil => exact ⟨rfl, rfl⟩
  | cons c t ih =>
    obtain ⟨hc, ht⟩ := List.forall_mem_cons.mp h
    have hrest := ih ht
    have hnext := next_inside hc.1 hc.2
    constructor
    · rw [after_cons, hnext, hrest.after_eq]
    · rw [bare, hnext, hrest.bare_eq]

/-- Whatever comes behind a backslash, the literal goes on. -/
theorem reads_escape (c : CodePoint) : Reads .inside [backslash, c] .inside [] := ⟨rfl, rfl⟩

end Lexer

/-! ### brackets and braces -/

/-- What is opened, with what closes it. -/
def enclosures : List (CodePoint × CodePoint) :=
  [(openBracket, closeBracket), (openBrace, closeBrace)]

/-- The marks that open or close something. -/
def enclosing : List CodePoint := [openBracket, closeBracket, openBrace, closeBrace]

/-- Whatever is opened is closed, and before it is closed all that has been opened within. -/
inductive Nested : Text → Prop
  | nil : Nested []
  | mark {c : CodePoint} {t : Text} (hc : c ∉ enclosing) (h : Nested t) : Nested (c :: t)
  | enclosed {opening closing : CodePoint} {s t : Text} (hp : (opening, closing) ∈ enclosures)
    (hs : Nested s) (ht : Nested t) : Nested (opening :: s ++ closing :: t)

theorem Nested.append {s t : Text} (hs : Nested s) (ht : Nested t) : Nested (s ++ t) := by
  induction hs with
  | nil => exact ht
  | mark hc _ ih => exact .mark hc ih
  | enclosed hp hs _ _ ih =>
    rw [List.append_assoc, List.cons_append]
    exact .enclosed hp hs ih

theorem nested_of_notMem {t : Text} (h : ∀ c ∈ t, c ∉ enclosing) : Nested t := by
  induction t with
  | nil => exact .nil
  | cons c t ih =>
    obtain ⟨hc, ht⟩ := List.forall_mem_cons.mp h
    exact .mark hc (ih ht)

namespace Json

open Lexer

/-! ### compact texts -/

/-- Printable ASCII in which every literal is closed, and outside of literals nested brackets and
braces and no space. -/
structure Compact (t : Text) : Prop where
  graphic : ∀ c ∈ t, c.IsGraphic
  closed : after .outside t = .outside
  spaceless : space ∉ bare .outside t
  nested : Nested (bare .outside t)

theorem Compact.reads {t : Text} (h : Compact t) :
    Reads .outside t .outside (bare .outside t) := ⟨h.closed, rfl⟩

theorem Compact.append {s t : Text} (hs : Compact s) (ht : Compact t) : Compact (s ++ t) := by
  have hreads := hs.reads.append ht.reads
  refine ⟨List.forall_mem_append.mpr ⟨hs.graphic, ht.graphic⟩, hreads.after_eq, ?_, ?_⟩
  · rw [hreads.bare_eq, List.mem_append, not_or]
    exact ⟨hs.spaceless, ht.spaceless⟩
  · rw [hreads.bare_eq]
    exact hs.nested.append ht.nested

/-- What is neither a space nor a mark of a literal, and opens and closes nothing. -/
def IsSolid (c : CodePoint) : Prop := c.IsGraphic ∧ c ∉ space :: quotationMark :: enclosing

instance (c : CodePoint) : Decidable (IsSolid c) := inferInstanceAs (Decidable (_ ∧ _))

theorem compact_of_isSolid {t : Text} (h : ∀ c ∈ t, IsSolid c) : Compact t := by
  have hmarks : ∀ c ∈ t, c ≠ space ∧ c ≠ quotationMark ∧ c ∉ enclosing := fun c hc => by
    have hc := (h c hc).2
    simpa only [List.mem_cons, not_or] using hc
  have hreads := reads_outside fun hq => (hmarks _ hq).2.1 rfl
  refine ⟨fun c hc => (h c hc).1, hreads.after_eq, ?_, ?_⟩
  · rw [hreads.bare_eq]
    exact fun hs => (hmarks _ hs).1 rfl
  · rw [hreads.bare_eq]
    exact nested_of_notMem fun c hc => (hmarks c hc).2.2

theorem compact_singleton {c : CodePoint} (h : IsSolid c) : Compact [c] :=
  compact_of_isSolid (List.forall_mem_singleton.mpr h)

theorem isGraphic_of_mem_enclosing : ∀ c ∈ enclosing, c.IsGraphic ∧ c ≠ space ∧
    c ≠ quotationMark := Text.forall_mem_of_all (by decide)

theorem mem_enclosing {opening closing : CodePoint} (h : (opening, closing) ∈ enclosures) :
    opening ∈ enclosing ∧ closing ∈ enclosing := by
  simp only [enclosures, List.mem_cons, List.not_mem_nil, or_false, Prod.mk.injEq] at h
  rcases h with ⟨rfl, rfl⟩ | ⟨rfl, rfl⟩ <;> simp only [enclosing, List.mem_cons, true_or, or_true,
    and_self]

/-- A compact text between an opening mark and the mark that closes it. -/
theorem Compact.enclosed {t : Text} (h : Compact t) {opening closing : CodePoint}
    (hp : (opening, closing) ∈ enclosures) : Compact ([opening] ++ t ++ [closing]) := by
  have hmem := mem_enclosing hp
  have ho := isGraphic_of_mem_enclosing _ hmem.1
  have hc := isGraphic_of_mem_enclosing _ hmem.2
  have hmark : ∀ {c : CodePoint}, c ≠ quotationMark → Reads .outside [c] .outside [c] :=
    fun hq => reads_outside fun hmem => hq (List.mem_singleton.mp hmem).symm
  have hreads := ((hmark ho.2.2).append h.reads).append (hmark hc.2.2)
  constructor
  · simp only [List.forall_mem_append, List.forall_mem_singleton]
    exact ⟨⟨ho.1, h.graphic⟩, hc.1⟩
  · exact hreads.after_eq
  · rw [hreads.bare_eq]
    simp only [List.mem_append, List.mem_singleton, not_or]
    exact ⟨⟨Ne.symm ho.2.1, h.spaceless⟩, Ne.symm hc.2.1⟩
  · rw [hreads.bare_eq]
    exact .enclosed hp h.nested .nil

theorem compact_intercalate {ts : List Text} (h : ∀ t ∈ ts, Compact t) :
    Compact ([comma].intercalate ts) := by
  induction ts with
  | nil => exact compact_of_isSolid (List.forall_mem_nil _)
  | cons t ts ih =>
    obtain ⟨ht, hts⟩ := List.forall_mem_cons.mp h
    cases ts with
    | nil =>
      rw [List.intercalate_singleton]
      exact ht
    | cons u us =>
      rw [List.intercalate_cons_cons]
      exact (ht.append (compact_singleton (by decide))).append (ih hts)

/-! ### literals -/

theorem shortEscape?_isGraphic {c letter : CodePoint} (h : shortEscape? c = some letter) :
    letter.IsGraphic := by
  unfold shortEscape? at h
  repeat' split at h
  all_goals cases h
  all_goals decide

theorem hexDigit_ne (n : Nat) : hexDigit n ≠ quotationMark ∧ hexDigit n ≠ backslash := by
  have hvalue := hexValue?_hexDigit n
  constructor <;>
  · intro h
    rw [h] at hvalue
    cases hvalue

theorem hexText_ne (width n : Nat) :
    ∀ c ∈ hexText width n, c ≠ quotationMark ∧ c ≠ backslash := by
  induction width generalizing n with
  | zero => exact List.forall_mem_nil _
  | succ width ih =>
    rw [hexText_succ]
    exact List.forall_mem_append.mpr
      ⟨ih (n / 16), List.forall_mem_singleton.mpr (hexDigit_ne n)⟩

/-- A part of a literal: printable, and the literal goes on after it. -/
structure Inner (t : Text) : Prop where
  graphic : ∀ c ∈ t, c.IsGraphic
  reads : Reads .inside t .inside []

theorem Inner.append {s t : Text} (hs : Inner s) (ht : Inner t) : Inner (s ++ t) :=
  ⟨List.forall_mem_append.mpr ⟨hs.graphic, ht.graphic⟩, hs.reads.append ht.reads⟩

theorem inner_escape {c : CodePoint} (h : c.IsGraphic) : Inner [backslash, c] :=
  ⟨List.forall_mem_cons.mpr ⟨by decide, List.forall_mem_singleton.mpr h⟩, reads_escape c⟩

theorem inner_unitEscape (n : Nat) : Inner (unitEscape n) :=
  (inner_escape (c := 'u') (by decide)).append
    ⟨Text.isGraphic_hexText 4 n, reads_inside (hexText_ne 4 n)⟩

theorem inner_literalCodePoint (c : CodePoint) : Inner (literalCodePoint c) := by
  unfold literalCodePoint
  cases hs : shortEscape? c with
  | some letter => exact inner_escape (shortEscape?_isGraphic hs)
  | none =>
    have hquote : c ≠ quotationMark := by
      rintro rfl
      cases hs
    have hback : c ≠ backslash := by
      rintro rfl
      cases hs
    simp only
    split
    · next hgraphic =>
      exact ⟨List.forall_mem_singleton.mpr hgraphic,
        reads_inside (List.forall_mem_singleton.mpr ⟨hquote, hback⟩)⟩
    · split
      · exact inner_unitEscape _
      · exact (inner_unitEscape _).append (inner_unitEscape _)

theorem inner_flatMap (t : Text) : Inner (t.flatMap literalCodePoint) := by
  induction t with
  | nil => exact ⟨List.forall_mem_nil _, rfl, rfl⟩
  | cons c t ih =>
    rw [List.flatMap_cons]
    exact (inner_literalCodePoint c).append ih

/-- **A literal is closed**, and nothing in it is read outside of literals. -/
theorem compact_literal (t : Text) : Compact (literal t) := by
  have hmark : quotationMark.IsGraphic := by decide
  have hinner := inner_flatMap t
  have hopen : Reads .outside [quotationMark] .inside [] := ⟨rfl, rfl⟩
  have hclose : Reads .inside [quotationMark] .outside [] := ⟨rfl, rfl⟩
  have hreads : Reads .outside (literal t) .outside [] :=
    (hopen.append hinner.reads).append hclose
  refine ⟨?_, hreads.after_eq, ?_, ?_⟩
  · exact List.forall_mem_append.mpr
      ⟨List.forall_mem_cons.mpr ⟨hmark, hinner.graphic⟩, List.forall_mem_singleton.mpr hmark⟩
  · rw [hreads.bare_eq]
    exact List.not_mem_nil
  · rw [hreads.bare_eq]
    exact .nil

/-! ### numbers -/

theorem isSolid_of_isDigit {c : CodePoint} (h : c.isDigit = true) : IsSolid c := by
  have hvalue : 0x30 ≤ c.val ∧ c.val ≤ 0x39 := of_decide_eq_true h
  refine ⟨⟨by omega, by omega⟩, fun hmem => ?_⟩
  have hmarks : ∀ d ∈ space :: quotationMark :: enclosing, d.isDigit = false :=
    Text.forall_mem_of_all (by decide)
  rw [hmarks c hmem] at h
  cases h

theorem isSolid_naturalText (n : Nat) : ∀ c ∈ Number.naturalText n, IsSolid c :=
  fun _ hc => isSolid_of_isDigit (Number.isDigit_of_mem_naturalText hc)

theorem isSolid_integerText (n : Int) : ∀ c ∈ Number.integerText n, IsSolid c := by
  unfold Number.integerText
  split
  · exact List.forall_mem_cons.mpr ⟨by decide, isSolid_naturalText _⟩
  · exact isSolid_naturalText _

section floating
open Double

theorem isSolid_replicate (n : Nat) : ∀ c ∈ List.replicate n CodePoint.zero, IsSolid c := by
  intro c hc
  rw [List.eq_of_mem_replicate hc]
  decide

theorem isSolid_positional {d : Double.Digits} (hd : ∀ c ∈ d.digits, IsSolid c) :
    ∀ c ∈ positional d, IsSolid c := by
  have hzero : IsSolid CodePoint.zero := by decide
  have hpoint : IsSolid point := by decide
  unfold positional
  split
  · exact List.forall_mem_cons.mpr ⟨hzero, List.forall_mem_cons.mpr ⟨hpoint,
      List.forall_mem_append.mpr ⟨isSolid_replicate _, hd⟩⟩⟩
  · simp only
    split
    · exact List.forall_mem_append.mpr ⟨List.forall_mem_append.mpr ⟨hd, isSolid_replicate _⟩,
        List.forall_mem_cons.mpr ⟨hpoint, List.forall_mem_singleton.mpr hzero⟩⟩
    · exact List.forall_mem_append.mpr ⟨fun c hc => hd c (List.mem_of_mem_take hc),
        List.forall_mem_cons.mpr ⟨hpoint, fun c hc => hd c (List.mem_of_mem_drop hc)⟩⟩

theorem isSolid_exponentText (n : Int) : ∀ c ∈ exponentText n, IsSolid c := by
  unfold exponentText
  refine List.forall_mem_cons.mpr ⟨?_, ?_⟩
  · split <;> decide
  · split
    · exact List.forall_mem_cons.mpr ⟨by decide, isSolid_naturalText _⟩
    · exact isSolid_naturalText _

theorem isSolid_scientific {d : Double.Digits} (hd : ∀ c ∈ d.digits, IsSolid c) :
    ∀ c ∈ scientific d, IsSolid c := by
  unfold scientific
  refine List.forall_mem_append.mpr ⟨List.forall_mem_append.mpr
    ⟨fun c hc => hd c (List.mem_of_mem_take hc), ?_⟩,
    List.forall_mem_cons.mpr ⟨by decide, isSolid_exponentText _⟩⟩
  split
  · exact List.forall_mem_nil _
  · exact List.forall_mem_cons.mpr ⟨by decide, fun c hc => hd c (List.mem_of_mem_drop hc)⟩

theorem isSolid_shortest (field : Fin 2047) (fraction : Fin 4503599627370496) :
    ∀ c ∈ (shortest field fraction).digits, IsSolid c := by
  intro c hc
  have hwritten := (List.dropWhile_sublist _).subset (List.mem_reverse.mp hc)
  exact isSolid_naturalText _ c (List.mem_reverse.mp hwritten)

theorem isSolid_unsignedText (x : Double) : ∀ c ∈ unsignedText serialised x, IsSolid c := by
  cases x with
  | notANumber => exact Text.forall_mem_of_all (by decide)
  | infinity negative =>
    have h : ∀ c ∈ serialised.infinity, IsSolid c := Text.forall_mem_of_all (by decide)
    exact h
  | finite negative field fraction =>
    have hd := isSolid_shortest field fraction
    rw [unsignedText]
    split
    · exact isSolid_positional (List.forall_mem_singleton.mpr (by decide))
    · simp only
      split
      · exact isSolid_positional hd
      · exact isSolid_scientific hd

theorem isSolid_text (x : Double) : ∀ c ∈ x.text serialised, IsSolid c := by
  unfold Double.text
  split
  · exact List.forall_mem_cons.mpr ⟨by decide, isSolid_unsignedText x⟩
  · exact isSolid_unsignedText x

end floating

/-! ### documents -/

theorem Compact.listText {ts : List Text} (h : ∀ t ∈ ts, Compact t) : Compact (listText ts) :=
  (compact_intercalate h).enclosed List.mem_cons_self

theorem Compact.memberText {t : Text} (h : Compact t) (name : Text) :
    Compact (memberText name t) :=
  ((compact_literal name).append (compact_singleton (by decide))).append h

theorem Compact.objectText {ts : List Text} (h : ∀ t ∈ ts, Compact t) :
    Compact (objectText ts) :=
  (compact_intercalate h).enclosed (List.mem_cons_of_mem _ List.mem_cons_self)

/-- **The text of a document is compact**, whatever its texts and the names of its members are. -/
theorem compact_render (d : Json) : Compact (render d) := by
  induction d using Json.induction with
  | null => exact compact_of_isSolid (Text.forall_mem_of_all (by decide))
  | bool b => cases b <;> exact compact_of_isSolid (Text.forall_mem_of_all (by decide))
  | int n =>
    rw [render_int]
    exact compact_of_isSolid (isSolid_integerText n)
  | float x =>
    rw [render]
    exact compact_of_isSolid (isSolid_text x)
  | str t =>
    rw [render_str]
    exact compact_literal t
  | arr items ih =>
    rw [render_arr]
    refine Compact.listText fun t ht => ?_
    obtain ⟨d, hd, rfl⟩ := List.mem_map.mp ht
    exact ih d hd
  | obj members ih =>
    rw [render_obj]
    refine Compact.objectText fun t ht => ?_
    obtain ⟨m, hm, rfl⟩ := List.mem_map.mp ht
    exact (ih m hm).memberText m.1

end Json

/-! ### values -/

namespace Store

open Lexer

/-- **The text of a value is one compact line.** It is printable ASCII, so no line ends in it.
Every literal is closed, every space stands in a literal, and outside of literals the brackets and
braces are nested. -/
theorem toJson_compact {st : Store} {v : Value} {t : Text} (h : st.toJson v = .ok t) :
    (∀ c ∈ t, 0x20 ≤ c.val ∧ c.val ≤ 0x7e) ∧ (∀ c ∈ lineBreaks, c ∉ t) ∧
      after .outside t = .outside ∧ space ∉ bare .outside t ∧ Nested (bare .outside t) := by
  obtain ⟨d, -, rfl⟩ := Json.exists_of_map_eq_ok h
  have hcompact := Json.compact_render d
  exact ⟨hcompact.graphic, (Text.legible_of_isGraphic hcompact.graphic).oneLine, hcompact.closed,
    hcompact.spaceless, hcompact.nested⟩

/-- Marks of every kind in a key; below it a point with what is not a number, a surrogate that
stands alone, and a code point beyond the first plane. -/
def awkward : Store :=
  { nodes := #[
      .list [.float .notANumber, .str loneSurrogate],
      .point (some (.ref 0)) (some (.str "😀 \x7b")),
      .table [(.str "]\x22\x5c\x0a", .ref 1)]] }

def awkwardText : Text :=
  "\x7b\x22]\x5c\x22\x5c\x5c\x5cn\x22:\x7b\x22x\x22:[NaN,\x22\x5cud800\x22],"
    ++ ("\x22y\x22:\x22\x5cud83d\x5cude00 \x7b\x22\x7d\x7d" : Text)

theorem toJson_compact_awkward : awkward.toJson (.ref 2) = .ok awkwardText ∧
    after .outside awkwardText = .outside ∧
    bare .outside awkwardText = "\x7b:\x7b:[NaN,],:\x7d\x7d" ∧
    Nested (bare .outside awkwardText) := by
  have htext : awkward.toJson (.ref 2) = .ok awkwardText := by decide +kernel
  obtain ⟨-, -, hclosed, -, hnested⟩ := toJson_compact htext
  exact ⟨htext, hclosed, by decide +kernel, hnested⟩

end Store

end SelectorForge
