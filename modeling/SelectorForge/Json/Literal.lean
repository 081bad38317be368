import SelectorForge.Text.Basic

/-!
# String literals

How a text is written between quotation marks in a JSON document: in printable ASCII, with short
escapes for the quotation mark, the backslash and five controls, and with UTF-16 units for the
rest.
-/

namespace SelectorForge.Json

open CodePoint

/-! ### UTF-16 units -/

/-- The pair that stands for a code point beyond the first plane. -/
def highUnit (c : CodePoint) : Nat := 0xd800 + (c.val - 0x10000) / 0x400
def lowUnit (c : CodePoint) : Nat := 0xdc00 + (c.val - 0x10000) % 0x400

/-- The code point of a high and a low surrogate. -/
def joinUnits (high low : CodePoint) : CodePoint :=
  let n := 0x10000 + (high.val - 0xd800) * 0x400 + (low.val - 0xdc00)
  if h : n < 0x110000 then ⟨n, h⟩ else low

theorem joinUnits_units {c high low : CodePoint} (hc : 0x10000 ≤ c.val)
    (hh : high.val = highUnit c) (hl : low.val = lowUnit c) : joinUnits high low = c := by
  have hlt := c.isLt
  simp only [highUnit, lowUnit] at hh hl
  have h : 0x10000 + (high.val - 0xd800) * 0x400 + (low.val - 0xdc00) = c.val := by omega
  simp only [joinUnits, h, hlt, dite_true]

/-! ### writing -/

def unitEscape (n : Nat) : Text := backslash :: ('u' : CodePoint) :: hexText 4 n

/-- The letter of a short escape. -/
def shortEscape? (c : CodePoint) : Option CodePoint :=
  if c = quotationMark then some quotationMark
  else if c = backslash then some backslash
  else if c = lineFeed then some 'n'
  else if c = carriageReturn then some 'r'
  else if c = tab then some 't'
  else if c = formFeed then some 'f'
  else if c = backspace then some 'b'
  else none

def literalCodePoint (c : CodePoint) : Text :=
  match shortEscape? c with
  | some letter => [backslash, letter]
  | none =>
    if 0x20 ≤ c.val ∧ c.val ≤ 0x7e then [c]
    else if c.val < 0x10000 then unitEscape c.val
    else unitEscape (highUnit c) ++ unitEscape (lowUnit c)

def literal (t : Text) : Text := quotationMark :: t.flatMap literalCodePoint ++ [quotationMark]

end SelectorForge.Json
