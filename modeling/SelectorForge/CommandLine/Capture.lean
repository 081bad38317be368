import SelectorForge.CommandLine.Run

/-!
# Captured outcomes

What is left of an outcome when its two outputs are caught as encoded text. Lines end in a line
feed alone, and a surrogate, which has no encoding, is spelled out on the second output; on the
first one it keeps the text from being printed, and the run has failed. This, too, is assumed of
what surrounds the program.
-/

namespace SelectorForge

namespace Text

open CodePoint

/-- Drops each carriage return in front of a line feed. -/
def foldLineEnds : Text → Text
  | [] => []
  | c :: rest =>
    if c = carriageReturn ∧ rest.head? = some lineFeed then foldLineEnds rest
    else c :: foldLineEnds rest

def spellSurrogate (c : CodePoint) : Text := if c.isSurrogate then numericEscape c else [c]

/-- With an escape for each surrogate. -/
def spellSurrogates (t : Text) : Text := t.flatMap spellSurrogate

/-- Without carriage returns a text is left as it is. -/
theorem foldLineEnds_eq_self {t : Text} (h : carriageReturn ∉ t) : foldLineEnds t = t := by
  induction t with
  | nil => rfl
  | cons c t ih =>
    simp only [List.mem_cons, not_or] at h
    rw [foldLineEnds, if_neg (fun hc => h.1 hc.1.symm), ih h.2]

theorem spellSurrogates_eq_self {t : Text} (h : ∀ c ∈ t, c.isSurrogate = false) :
    spellSurrogates t = t := by
  induction t with
  | nil => rfl
  | cons c t ih =>
    have hc : spellSurrogate c = [c] := by
      rw [spellSurrogate, if_neg (by simp [h c List.mem_cons_self])]
    show spellSurrogate c ++ spellSurrogates t = c :: t
    rw [hc, ih fun d hd => h d (List.mem_cons_of_mem _ hd)]
    rfl

end Text

namespace CommandLine

def Outcome.captured (o : Outcome) : Outcome :=
  if o.out.any CodePoint.isSurrogate then { exit := 1 }
  else { o with out := o.out.foldLineEnds, err := o.err.spellSurrogates.foldLineEnds }

end CommandLine

end SelectorForge
