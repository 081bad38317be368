import SelectorForge.Text.Basic

/-!
# Terminal sequences

Output that does not go to a terminal is freed from control sequences: an escape, an opening
bracket, any number of parameter marks and one letter. What only begins like a sequence stays.

The routine that prints is no part of the program. Assumed of it: neither of the two outputs is a
terminal, and nothing but these sequences is taken out of a text.
-/

namespace SelectorForge.Text

open CodePoint

def isParameterMark (c : CodePoint) : Bool := isDigit c || c == semicolon || c == questionMark

def isAsciiLetter (c : CodePoint) : Bool :=
  decide (0x41 ≤ c.val ∧ c.val ≤ 0x5a) || decide (0x61 ≤ c.val ∧ c.val ≤ 0x7a)

/-- What has been held back because a sequence may have begun. -/
inductive HeldBack
  | nothing
  | start
  | parameters (marks : Text)
deriving DecidableEq, Repr

/-- Drops the sequences of a text, of which some code points have been held back. -/
def dropSequences : HeldBack → Text → Text
  | .nothing, [] => []
  | .start, [] => [escape]
  | .parameters marks, [] => escape :: openBracket :: marks
  | .nothing, c :: rest =>
    if c = escape then dropSequences .start rest else c :: dropSequences .nothing rest
  | .start, c :: rest =>
    if c = openBracket then dropSequences (.parameters []) rest
    else if c = escape then escape :: dropSequences .start rest
    else escape :: c :: dropSequences .nothing rest
  | .parameters marks, c :: rest =>
    if isParameterMark c then dropSequences (.parameters (marks ++ [c])) rest
    else if isAsciiLetter c then dropSequences .nothing rest
    else if c = escape then escape :: openBracket :: marks ++ dropSequences .start rest
    else escape :: openBracket :: marks ++ c :: dropSequences .nothing rest

/-- The text as it is printed. -/
def printed (t : Text) : Text := dropSequences .nothing t

/-- A text without an escape is printed as it is. -/
theorem printed_eq_self {t : Text} (h : escape ∉ t) : printed t = t := by
  show dropSequences .nothing t = t
  induction t with
  | nil => rfl
  | cons c t ih =>
    simp only [List.mem_cons, not_or] at h
    rw [dropSequences, if_neg (Ne.symm h.1), ih h.2]

end SelectorForge.Text
