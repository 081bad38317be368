import SelectorForge.Text.Basic

/-!
# Blanks

The white space of Unicode, the four information separators included, and texts without it at
their ends.
-/

namespace SelectorForge

namespace CodePoint

/-- First and last code point of each range of white space. -/
def blankRanges : List (Nat × Nat) := [
  (0x9, 0xd), (0x1c, 0x20), (0x85, 0x85), (0xa0, 0xa0), (0x1680, 0x1680), (0x2000, 0x200a),
  (0x2028, 0x2029), (0x202f, 0x202f), (0x205f, 0x205f), (0x3000, 0x3000)]

def isBlank (c : CodePoint) : Bool :=
  blankRanges.any fun (first, last) => decide (first ≤ c.val ∧ c.val ≤ last)

end CodePoint

namespace Text

def trimLeft (t : Text) : Text := t.dropWhile CodePoint.isBlank

def trimRight (t : Text) : Text := (t.reverse.dropWhile CodePoint.isBlank).reverse

/-- The text without the blanks at its two ends. -/
def trim (t : Text) : Text := trimRight (trimLeft t)

theorem trimLeft_append_of_blank {a : Text} (h : ∀ c ∈ a, c.isBlank = true) (t : Text) :
    trimLeft (a ++ t) = trimLeft t := by
  induction a with
  | nil => rfl
  | cons c a ih =>
    rw [List.cons_append, trimLeft, List.dropWhile_cons_of_pos (h c List.mem_cons_self)]
    exact ih fun d hd => h d (List.mem_cons_of_mem _ hd)

end Text

end SelectorForge
