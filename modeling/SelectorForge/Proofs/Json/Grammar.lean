import SelectorForge.Json.Reader

/-!
# The grammar of documents

Which texts spell which documents. A document is taken as it is spelled, with every member of an
object, also where several have one name.

* `SpellsString`    string literals, with all escapes;
* `SpellsNumeral`   numbers, part by part;
* `Spells`          values;
* `Spelled`         values with blanks around them.
-/

namespace SelectorForge.Json

open CodePoint

/-! ### blanks -/

def Blank (t : Text) : Prop := ∀ c ∈ t, isSpace c = true

/-! ### strings -/

/-- The spelling of a code point: as it is, by a short escape, or by a UTF-16 unit. -/
inductive SpellsPiece : Text → Piece → Prop
  | plain {c : CodePoint} (hc : 0x1f < c.val) (hq : c ≠ quotationMark) (hb : c ≠ backslash) :
    SpellsPiece [c] ⟨c, false⟩
  | short {letter c : CodePoint} (h : unescape? letter = some c) :
    SpellsPiece [backslash, letter] ⟨c, false⟩
  | unit {d₁ d₂ d₃ d₄ c : CodePoint} (h : unit? d₁ d₂ d₃ d₄ = some c) :
    SpellsPiece [backslash, 'u', d₁, d₂, d₃, d₄] ⟨c, true⟩

inductive SpellsPieces : Text → List Piece → Prop
  | nil : SpellsPieces [] []
  | cons {s t : Text} {p : Piece} {ps : List Piece} (h : SpellsPiece s p) (ht : SpellsPieces t ps) :
    SpellsPieces (s ++ t) (p :: ps)

/-- A text between quotation marks; two units that belong together spell one code point. -/
inductive SpellsString : Text → Text → Prop
  | mk {s : Text} {ps : List Piece} (h : SpellsPieces s ps) :
    SpellsString (quotationMark :: (s ++ [quotationMark])) (joinPieces ps)

/-! ### numbers -/

def Digits (t : Text) : Prop := ∀ c ∈ t, isDigit c = true

/-- Digits without a zero before others. -/
structure IsWhole (t : Text) : Prop where
  digits : Digits t
  ne_nil : t ≠ []
  eq_zero : t.head? = some zero → t = [zero]

def minusText (negative : Bool) : Text := if negative then [hyphen] else []

def fractionText (fraction : Text) : Text := if fraction = [] then [] else point :: fraction

/-- The spellings of the sign of an exponent. -/
def signs : List (Text × Bool) := [([], false), ([plus], false), ([hyphen], true)]

def exponentMarks : List CodePoint := ['e', 'E']

inductive SpellsExponent : Text → Option Int → Prop
  | none : SpellsExponent [] none
  | some {mark : CodePoint} {sign : Text} {negative : Bool} {digits : Text}
    (hm : mark ∈ exponentMarks) (hs : (sign, negative) ∈ signs) (hd : Digits digits)
    (hne : digits ≠ []) :
    SpellsExponent (mark :: sign ++ digits)
      (some (if negative then -(Number.digitsValue digits : Int) else Number.digitsValue digits))

inductive SpellsNumeral : Text → Numeral → Prop
  | mk {negative : Bool} {whole fraction e : Text} {exponent : Option Int} (hw : IsWhole whole)
    (hf : Digits fraction) (he : SpellsExponent e exponent) :
    SpellsNumeral (minusText negative ++ (whole ++ (fractionText fraction ++ e)))
      ⟨negative, whole, fraction, exponent⟩

/-! ### values -/

/-- The name of a member up to its value: a literal, and a colon between blanks. -/
inductive SpellsName : Text → Text → Prop
  | mk {literal name gap before : Text} (h : SpellsString literal name) (hg : Blank gap)
    (hb : Blank before) : SpellsName (literal ++ (gap ++ colon :: before)) name

mutual

inductive Spells : Text → Json → Prop
  | word {s : Text} {d : Json} (h : (s, d) ∈ words) : Spells s d
  | numeral {s : Text} {n : Numeral} {d : Json} (h : SpellsNumeral s n) (hv : n.value = .ok d) :
    Spells s d
  | string {s t : Text} (h : SpellsString s t) : Spells s (.str t)
  | emptyArray {b : Text} (hb : Blank b) : Spells (openBracket :: (b ++ [closeBracket])) (.arr [])
  | array {b t : Text} {ds : List Json} (hb : Blank b) (h : SpellsItems t ds) :
    Spells (openBracket :: (b ++ t)) (.arr ds)
  | emptyObject {b : Text} (hb : Blank b) : Spells (openBrace :: (b ++ [closeBrace])) (.obj [])
  | object {b t : Text} {ms : List (Text × Json)} (hb : Blank b) (h : SpellsMembers t ms) :
    Spells (openBrace :: (b ++ t)) (.obj ms)

/-- A text from the first item of an array to the closing bracket. -/
inductive SpellsItems : Text → List Json → Prop
  | last {s a : Text} {d : Json} (h : Spells s d) (ha : Blank a) :
    SpellsItems (s ++ (a ++ [closeBracket])) [d]
  | more {s a b t : Text} {d : Json} {ds : List Json} (h : Spells s d) (ha : Blank a)
    (hb : Blank b) (ht : SpellsItems t ds) :
    SpellsItems (s ++ (a ++ comma :: (b ++ t))) (d :: ds)

/-- A text from the first member of an object to the closing brace. -/
inductive SpellsMembers : Text → List (Text × Json) → Prop
  | last {k s a name : Text} {d : Json} (hk : SpellsName k name) (h : Spells s d) (ha : Blank a) :
    SpellsMembers (k ++ (s ++ (a ++ [closeBrace]))) [(name, d)]
  | more {k s a b t name : Text} {d : Json} {ms : List (Text × Json)} (hk : SpellsName k name)
    (h : Spells s d) (ha : Blank a) (hb : Blank b) (ht : SpellsMembers t ms) :
    SpellsMembers (k ++ (s ++ (a ++ comma :: (b ++ t)))) ((name, d) :: ms)

end

/-- A text that spells a document. -/
inductive Spelled : Text → Json → Prop
  | mk {before s after : Text} {d : Json} (hb : Blank before) (h : Spells s d) (ha : Blank after) :
    Spelled (before ++ (s ++ after)) d

/-! ### blanks and the reader -/

theorem blank_nil : Blank [] := by
  intro c hc
  cases hc

theorem skipSpace_append {b : Text} (hb : Blank b) (t : Text) :
    skipSpace (b ++ t) = skipSpace t :=
  List.dropWhile_append_of_pos hb

theorem skipSpace_cons {c : CodePoint} (hc : isSpace c = false) (t : Text) :
    skipSpace (c :: t) = c :: t :=
  List.dropWhile_cons_of_neg (by rw [hc]; exact Bool.false_ne_true)

theorem exists_blank_append (t : Text) : ∃ b, Blank b ∧ t = b ++ skipSpace t :=
  ⟨t.takeWhile isSpace, List.all_eq_true.mp List.all_takeWhile,
    List.takeWhile_append_dropWhile.symm⟩

end SelectorForge.Json
