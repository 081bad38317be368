import SelectorForge.Text.Printable

/-!
# Quoted texts

The form in which messages show a text: between apostrophes, or between quotation marks where it
holds apostrophes and no quotation mark. The mark in use, the backslash and whatever is not
printable are written as escapes, so a quoted text is always one line.
-/

namespace SelectorForge.Text

open CodePoint

/-- The mark a text is quoted with. -/
def quoteMark (t : Text) : CodePoint :=
  if apostrophe ∈ t ∧ quotationMark ∉ t then quotationMark else apostrophe

/-- The shortest of the three forms with two, four and eight hexadecimal digits. -/
def numericEscape (c : CodePoint) : Text :=
  if c.val < 0x100 then backslash :: 'x' :: hexText 2 c.val
  else if c.val < 0x10000 then backslash :: 'u' :: hexText 4 c.val
  else backslash :: 'U' :: hexText 8 c.val

def quotedCodePoint (mark c : CodePoint) : Text :=
  if c = mark ∨ c = backslash then [backslash, c]
  else if c = tab then [backslash, 't']
  else if c = lineFeed then [backslash, 'n']
  else if c = carriageReturn then [backslash, 'r']
  else if isPrintable c then [c]
  else numericEscape c

def quoted (t : Text) : Text :=
  quoteMark t :: t.flatMap (quotedCodePoint (quoteMark t)) ++ [quoteMark t]

/-! ### octets -/

/-- An octet between apostrophes: outside the printable part of ASCII always a numeric escape. -/
def quotedOctet (mark c : CodePoint) : Text :=
  if c = mark ∨ c = backslash then [backslash, c]
  else if c = tab then [backslash, 't']
  else if c = lineFeed then [backslash, 'n']
  else if c = carriageReturn then [backslash, 'r']
  else if 0x20 ≤ c.val ∧ c.val < 0x7f then [c]
  else backslash :: 'x' :: hexText 2 c.val

def ofOctets (bytes : List UInt8) : Text :=
  bytes.map fun b => ⟨b.toNat, Nat.lt_trans b.toNat_lt (by decide)⟩

def quotedOctets (bytes : List UInt8) : Text :=
  let t := ofOctets bytes
  ('b' : CodePoint) :: quoteMark t :: t.flatMap (quotedOctet (quoteMark t)) ++ [quoteMark t]

/-! ### what a quoted text is made of -/

theorem quoteMark_eq (t : Text) : quoteMark t = quotationMark ∨ quoteMark t = apostrophe := by
  unfold quoteMark
  split
  · exact Or.inl rfl
  · exact Or.inr rfl

end SelectorForge.Text
