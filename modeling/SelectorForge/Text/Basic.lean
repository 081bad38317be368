/-!
# Text

A text is a list of Unicode code points. Surrogates may stand alone in it, since an escape in a
JSON document can spell one.
-/

namespace SelectorForge

/-- Code points, surrogates included. -/
abbrev CodePoint := Fin 0x110000

abbrev Text := List CodePoint

namespace CodePoint

def ofChar (c : Char) : CodePoint :=
  ⟨c.toNat, by
    have h := c.valid
    simp only [UInt32.isValidChar, Nat.isValidChar] at h
    show c.val.toNat < 0x110000
    omega⟩

instance : Coe Char CodePoint := ⟨ofChar⟩

theorem ofChar_val (c : Char) : (ofChar c).val = c.toNat := rfl

/-! ### marks that need a name -/

def backspace : CodePoint := ofChar '\x08'
def tab : CodePoint := ofChar '\x09'
def lineFeed : CodePoint := ofChar '\x0a'
def formFeed : CodePoint := ofChar '\x0c'
def carriageReturn : CodePoint := ofChar '\x0d'
def escape : CodePoint := ofChar '\x1b'
def space : CodePoint := ofChar ' '
def quotationMark : CodePoint := ofChar '\x22'
def apostrophe : CodePoint := ofChar '\x27'
def plus : CodePoint := ofChar '+'
def comma : CodePoint := ofChar ','
def hyphen : CodePoint := ofChar '-'
def point : CodePoint := ofChar '.'
def solidus : CodePoint := ofChar '/'
def zero : CodePoint := ofChar '0'
def colon : CodePoint := ofChar ':'
def semicolon : CodePoint := ofChar ';'
def equalsSign : CodePoint := ofChar '='
def questionMark : CodePoint := ofChar '?'
def openBracket : CodePoint := ofChar '['
def backslash : CodePoint := ofChar '\x5c'
def closeBracket : CodePoint := ofChar ']'
def underscore : CodePoint := ofChar '_'
def openBrace : CodePoint := ofChar '\x7b'
def closeBrace : CodePoint := ofChar '\x7d'
def byteOrderMark : CodePoint := ofChar '\ufeff'

/-! ### surrogates -/

def isHighSurrogate (c : CodePoint) : Bool := decide (0xd800 ≤ c.val ∧ c.val ≤ 0xdbff)
def isLowSurrogate (c : CodePoint) : Bool := decide (0xdc00 ≤ c.val ∧ c.val ≤ 0xdfff)
def isSurrogate (c : CodePoint) : Bool := decide (0xd800 ≤ c.val ∧ c.val ≤ 0xdfff)

theorem isSurrogate_eq (c : CodePoint) :
    isSurrogate c = (isHighSurrogate c || isLowSurrogate c) := by
  simp only [isSurrogate, isHighSurrogate, isLowSurrogate, ← Bool.decide_or]
  congr 1
  apply propext
  omega

/-! ### digits -/

def isDigit (c : CodePoint) : Bool := decide (0x30 ≤ c.val ∧ c.val ≤ 0x39)

/-- The digit of a value below ten, the letter `a` and those after it from ten on. -/
def hexDigit (n : Nat) : CodePoint :=
  let d := n % 16
  if h : d < 10 then ⟨0x30 + d, by omega⟩ else ⟨0x57 + d, by omega⟩

def hexValue? (c : CodePoint) : Option Nat :=
  if 0x30 ≤ c.val ∧ c.val ≤ 0x39 then some (c.val - 0x30)
  else if 0x61 ≤ c.val ∧ c.val ≤ 0x66 then some (c.val - 0x57)
  else if 0x41 ≤ c.val ∧ c.val ≤ 0x46 then some (c.val - 0x37)
  else none

theorem hexValue?_hexDigit (n : Nat) : hexValue? (hexDigit n) = some (n % 16) := by
  unfold hexDigit hexValue?
  have : n % 16 < 16 := Nat.mod_lt _ (by decide)
  by_cases h : n % 16 < 10
  · simp only [h, dite_true]
    rw [if_pos (by constructor <;> omega)]
    simp
  · simp only [h, dite_false]
    rw [if_neg (by omega), if_pos (by constructor <;> omega)]
    simp

/-- The last `width` hexadecimal digits of a number. -/
def hexText : Nat → Nat → Text
  | 0, _ => []
  | width + 1, n => hexText width (n / 16) ++ [hexDigit n]

theorem hexText_succ (width n : Nat) :
    hexText (width + 1) n = hexText width (n / 16) ++ [hexDigit n] := rfl

end CodePoint

namespace Text

def ofString (s : String) : Text := s.toList.map CodePoint.ofChar

instance : Coe String Text := ⟨ofString⟩

/-- For the terminal: a surrogate becomes the replacement character. -/
def toString (t : Text) : String :=
  String.ofList (t.map fun c => if c.isSurrogate then Char.ofNat 0xfffd else Char.ofNat c.val)

/-! ### parts of a text -/

/-- What stands before the first `c`, and what stands after it; nothing where there is no `c`. -/
def splitAt? (c : CodePoint) : Text → Option (Text × Text)
  | [] => none
  | d :: rest => if d = c then some ([], rest) else (splitAt? c rest).map fun (a, b) => (d :: a, b)

theorem splitAt?_nil (c : CodePoint) : splitAt? c [] = none := rfl

theorem splitAt?_cons (c d : CodePoint) (t : Text) :
    splitAt? c (d :: t)
      = if d = c then some ([], t) else (splitAt? c t).map fun (a, b) => (d :: a, b) := rfl

theorem splitAt?_append (c : CodePoint) (a b : Text) (h : c ∉ a) :
    splitAt? c (a ++ c :: b) = some (a, b) := by
  induction a with
  | nil => simp [splitAt?_cons]
  | cons d a ih =>
    simp only [List.mem_cons, not_or] at h
    rw [List.cons_append, splitAt?_cons, if_neg (Ne.symm h.1), ih h.2]
    rfl

theorem splitAt?_eq_none_iff (c : CodePoint) (t : Text) : splitAt? c t = none ↔ c ∉ t := by
  induction t with
  | nil => simp [splitAt?_nil]
  | cons d t ih =>
    rw [splitAt?_cons]
    by_cases h : d = c
    · simp [h]
    · simp [h, ih, Ne.symm h]

theorem eq_of_splitAt?_eq_some {c : CodePoint} {t a b : Text} (h : splitAt? c t = some (a, b)) :
    t = a ++ c :: b ∧ c ∉ a := by
  induction t generalizing a with
  | nil => simp [splitAt?_nil] at h
  | cons d t ih =>
    rw [splitAt?_cons] at h
    by_cases hd : d = c
    · simp only [hd, if_true, Option.some.injEq, Prod.mk.injEq] at h
      obtain ⟨rfl, rfl⟩ := h
      simp [hd]
    · simp only [hd, if_false, Option.map_eq_some_iff] at h
      obtain ⟨⟨a', b'⟩, h', heq⟩ := h
      simp only [Prod.mk.injEq] at heq
      obtain ⟨rfl, rfl⟩ := heq
      obtain ⟨rfl, hn⟩ := ih h'
      simp [hn, Ne.symm hd]

end Text

end SelectorForge
