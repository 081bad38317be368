import SelectorForge.Text.Basic

/-!
# Words

Splitting a line into words by the quoting rules of the POSIX shell: blanks separate words,
nothing is special between apostrophes, a backslash between quotation marks is special only before
a quotation mark or a backslash, and everywhere else it takes the next code point as it is. There
are no comments and no expansions.
-/

namespace SelectorForge.Text

open CodePoint

/-- Why a line does not split. -/
inductive WordError
  | noClosingQuotation
  | noEscapedCodePoint
deriving DecidableEq, Repr

/-- Where a reader of words stands. -/
inductive WordState
  | between
  | bare
  | single
  | double
  | escapedBare
  | escapedDouble
deriving DecidableEq, Repr

def isWordBlank (c : CodePoint) : Bool :=
  c == space || c == tab || c == carriageReturn || c == lineFeed

/-- Reads on from a state, with the part of the current word that has been read. -/
def wordsFrom : WordState → Text → Text → Except WordError (List Text)
  | .between, _, [] => .ok []
  | .bare, word, [] => .ok [word]
  | .single, _, [] | .double, _, [] => .error .noClosingQuotation
  | .escapedBare, _, [] | .escapedDouble, _, [] => .error .noEscapedCodePoint
  | .between, _, c :: rest =>
    if isWordBlank c then wordsFrom .between [] rest
    else if c = backslash then wordsFrom .escapedBare [] rest
    else if c = apostrophe then wordsFrom .single [] rest
    else if c = quotationMark then wordsFrom .double [] rest
    else wordsFrom .bare [c] rest
  | .bare, word, c :: rest =>
    if isWordBlank c then (wordsFrom .between [] rest).map (word :: ·)
    else if c = backslash then wordsFrom .escapedBare word rest
    else if c = apostrophe then wordsFrom .single word rest
    else if c = quotationMark then wordsFrom .double word rest
    else wordsFrom .bare (word ++ [c]) rest
  | .single, word, c :: rest =>
    if c = apostrophe then wordsFrom .bare word rest
    else wordsFrom .single (word ++ [c]) rest
  | .double, word, c :: rest =>
    if c = quotationMark then wordsFrom .bare word rest
    else if c = backslash then wordsFrom .escapedDouble word rest
    else wordsFrom .double (word ++ [c]) rest
  | .escapedBare, word, c :: rest => wordsFrom .bare (word ++ [c]) rest
  | .escapedDouble, word, c :: rest =>
    if c = quotationMark ∨ c = backslash then wordsFrom .double (word ++ [c]) rest
    else wordsFrom .double (word ++ [backslash, c]) rest

/-- The words of a line. -/
def words (line : Text) : Except WordError (List Text) := wordsFrom .between [] line

def WordError.message : WordError → Text
  | .noClosingQuotation => "No closing quotation"
  | .noEscapedCodePoint => "No escaped character"

end SelectorForge.Text
