import SelectorForge.Text.Blank
import SelectorForge.Text.Lowercase
import Mathlib.Data.List.TakeWhile

/-!
# Case and blanks

Where a text is compared with a word of ASCII letters, the lower case of Unicode does no more than
to fold the case of ASCII: what else becomes smaller becomes something that is in no such word. The
one exception is the sign of the kelvin, which becomes a `k`.

* `CodePoint.foldCase`   the small letter of a capital of ASCII;
* `CodePoint.Steadfast`  what no other code point than its own capital becomes;
* `Text.lower_eq_iff`    texts whose lower case is a steadfast word;
* `Text.Strips`          a text and what is left of it without the blanks around it.
-/

namespace SelectorForge

namespace CodePoint

/-! ### one code point -/

def IsCapital (c : CodePoint) : Prop := 0x41 ≤ c.val ∧ c.val ≤ 0x5a

instance (c : CodePoint) : Decidable c.IsCapital := inferInstanceAs (Decidable (_ ∧ _))

/-- A capital of ASCII becomes a small letter, and everything else stays. -/
def foldCase (c : CodePoint) : CodePoint :=
  if h : c.IsCapital then ⟨c.val + 32, by have := h.2; omega⟩ else c

theorem foldCase_of_not_isCapital {c : CodePoint} (h : ¬ c.IsCapital) : c.foldCase = c :=
  dif_neg h

theorem foldCase_val_of_isCapital {c : CodePoint} (h : c.IsCapital) :
    c.foldCase.val = c.val + 32 := by
  rw [foldCase, dif_pos h]

theorem val_le_foldCase (c : CodePoint) : c.val ≤ c.foldCase.val := by
  by_cases h : c.IsCapital
  · rw [foldCase_val_of_isCapital h]
    omega
  · rw [foldCase_of_not_isCapital h]

/-- Only what is a small letter can have been a capital. -/
theorem foldCase_eq_iff {c d : CodePoint} (hd : d.val < 0x61 ∨ 0x7a < d.val)
    (hcapital : ¬ d.IsCapital) : c.foldCase = d ↔ c = d := by
  by_cases h : c.IsCapital
  · have hval := foldCase_val_of_isCapital h
    have hne : c.foldCase ≠ d := by
      intro he
      rw [he] at hval
      have := h.1
      have := h.2
      omega
    have hne' : c ≠ d := by
      rintro rfl
      exact hcapital h
    exact iff_of_false hne hne'
  · rw [foldCase_of_not_isCapital h]

/-- Small letters but `k`, and the rest of ASCII without its capitals. -/
def Steadfast (c : CodePoint) : Prop := c.val < 0x80 ∧ ¬ c.IsCapital ∧ c.val ≠ 0x6b

instance (c : CodePoint) : Decidable c.Steadfast := inferInstanceAs (Decidable (_ ∧ _ ∧ _))

/-- The runs of ASCII come first in the table; of the others only one comes down to ASCII. -/
theorem run_of_mem_caseRuns : ∀ r ∈ caseRuns,
    r = ⟨0x41, 0x5a, 1, 32⟩ ∨ 0x80 ≤ r.first ∧
      (r = ⟨0x212a, 0x212a, 1, -8383⟩ ∨ (0x80 : Int) ≤ r.first + r.shift) := by
  have htable : (caseRuns.all fun r =>
      decide (r.first = 0x41 ∧ r.last = 0x5a ∧ r.step = 1 ∧ r.shift = 32) ||
        decide (0x80 ≤ r.first ∧
          ((r.first = 0x212a ∧ r.last = 0x212a ∧ r.step = 1 ∧ r.shift = -8383) ∨
            (0x80 : Int) ≤ r.first + r.shift))) = true := by
    decide +kernel
  intro r hr
  have hrun := List.all_eq_true.mp htable r hr
  rw [Bool.or_eq_true, decide_eq_true_eq, decide_eq_true_eq] at hrun
  cases r
  simpa using hrun

theorem between_of_find? {r : CaseRun} {n : Nat} (h : caseRuns.find? (·.covers n) = some r) :
    r.first ≤ n ∧ n ≤ r.last := by
  have hcovers : r.covers n = true := @List.find?_some _ (·.covers n) r caseRuns h
  rw [CaseRun.covers, Bool.and_eq_true, decide_eq_true_eq] at hcovers
  exact hcovers.1

theorem lower_of_lt {c : CodePoint} (h : c.val < 0x80) : c.lower = [c.foldCase] := by
  have hdot : c.val ≠ 0x130 := by omega
  rw [CodePoint.lower, if_neg hdot]
  cases hr : caseRuns.find? (·.covers c.val) with
  | none =>
    have hcapital : ¬ c.IsCapital := by
      intro hcapital
      have hnot := List.find?_eq_none.mp hr ⟨0x41, 0x5a, 1, 32⟩ List.mem_cons_self
      apply hnot
      simp only [CaseRun.covers, Nat.mod_one, beq_self_eq_true, Bool.and_true, decide_eq_true_eq]
      exact hcapital
    rw [foldCase_of_not_isCapital hcapital]
  | some r =>
    have hcovers := between_of_find? hr
    rcases run_of_mem_caseRuns r (List.mem_of_find?_eq_some hr) with rfl | ⟨hfirst, _⟩
    · have hcapital : c.IsCapital := hcovers
      have hshift : c.shifted 32 = c.foldCase := by
        apply Fin.ext
        rw [foldCase_val_of_isCapital hcapital, shifted]
        have hn : ((c.val : Int) + 32).toNat = c.val + 32 := by omega
        simp only [hn]
        rw [dif_pos (by omega)]
      show [c.shifted 32] = _
      rw [hshift]
    · omega

/-- Outside ASCII nothing becomes a steadfast code point alone. -/
theorem exists_not_steadfast {c : CodePoint} (h : 0x80 ≤ c.val) :
    ∃ d ∈ c.lower, ¬ d.Steadfast := by
  have hhigh : ∀ d : CodePoint, 0x80 ≤ d.val → ¬ d.Steadfast := by
    intro d hd hs
    have := hs.1
    omega
  by_cases hdot : c.val = 0x130
  · rw [CodePoint.lower, if_pos hdot]
    exact ⟨ofChar '\u0307', by simp, by decide⟩
  · rw [CodePoint.lower, if_neg hdot]
    cases hr : caseRuns.find? (·.covers c.val) with
    | none => exact ⟨c, List.mem_cons_self, hhigh c h⟩
    | some r =>
      refine ⟨c.shifted r.shift, List.mem_cons_self, ?_⟩
      have hcovers := between_of_find? hr
      rcases run_of_mem_caseRuns r (List.mem_of_find?_eq_some hr) with rfl | ⟨_, rfl | hlow⟩
      · have hle : c.val ≤ 0x5a := hcovers.2
        omega
      · have hkelvin : c = ofChar '\u212a' := Fin.ext (Nat.le_antisymm hcovers.2 hcovers.1)
        rw [hkelvin]
        decide
      · apply hhigh
        unfold shifted
        have hn : 0x80 ≤ ((c.val : Int) + r.shift).toNat := by omega
        simp only
        split
        · exact hn
        · exact h

theorem lt_of_steadfast_foldCase {c : CodePoint} (h : c.foldCase.Steadfast) : c.val < 0x80 :=
  Nat.lt_of_le_of_lt (val_le_foldCase c) h.1

end CodePoint

namespace Text

open CodePoint

/-! ### texts -/

/-- Code point by code point of the text, not of the finitely many there are. -/
theorem forall_mem_of_all {P : CodePoint → Prop} [DecidablePred P] {t : Text}
    (h : (t.all fun c => decide (P c)) = true) : ∀ c ∈ t, P c := fun c hc =>
  of_decide_eq_true (List.all_eq_true.mp h c hc)

def foldCase (t : Text) : Text := t.map CodePoint.foldCase

theorem lower_eq_foldCase {t : Text} (h : ∀ c ∈ t, c.val < 0x80) : t.lower = t.foldCase := by
  induction t with
  | nil => rfl
  | cons c t ih =>
    obtain ⟨hc, ht⟩ := List.forall_mem_cons.mp h
    rw [lower_cons, lower_of_lt hc, ih ht]
    rfl

/-- **Only the case of ASCII counts**, where the lower case of a text is to be a steadfast word. -/
theorem lower_eq_iff {t w : Text} (hw : ∀ c ∈ w, c.Steadfast) : t.lower = w ↔ t.foldCase = w := by
  constructor
  · rintro rfl
    have hascii : ∀ c ∈ t, c.val < 0x80 := by
      intro c hc
      by_contra hlarge
      obtain ⟨d, hd, hnot⟩ := exists_not_steadfast (Nat.le_of_not_lt hlarge)
      exact hnot (hw d (List.mem_flatMap.mpr ⟨c, hc, hd⟩))
    exact (lower_eq_foldCase hascii).symm
  · rintro rfl
    apply lower_eq_foldCase
    intro c hc
    exact lt_of_steadfast_foldCase (hw _ (List.mem_map.mpr ⟨c, hc, rfl⟩))

/-! ### blanks -/

/-- A text is another one with blanks around it, which has no blanks at its ends itself. -/
def Strips (t core : Text) : Prop :=
  (∃ lead trail, t = lead ++ (core ++ trail) ∧ (∀ c ∈ lead, c.isBlank = true) ∧
    ∀ c ∈ trail, c.isBlank = true) ∧
  (∀ c ∈ core.head?, c.isBlank = false) ∧ ∀ c ∈ core.getLast?, c.isBlank = false

theorem trimLeft_eq_self {t : Text} (h : ∀ c ∈ t.head?, c.isBlank = false) : trimLeft t = t := by
  cases t with
  | nil => rfl
  | cons c t => exact List.dropWhile_cons_of_neg (by rw [h c rfl]; exact Bool.false_ne_true)

theorem trimLeft_of_blank {t : Text} (h : ∀ c ∈ t, c.isBlank = true) : trimLeft t = [] :=
  List.dropWhile_eq_nil_iff.mpr h

theorem trimRight_append_of_blank {trail : Text} (h : ∀ c ∈ trail, c.isBlank = true) {t : Text}
    (ht : ∀ c ∈ t.getLast?, c.isBlank = false) : trimRight (t ++ trail) = t := by
  have hback : ∀ c ∈ trail.reverse, c.isBlank = true := fun c hc => h c (List.mem_reverse.mp hc)
  show (trimLeft (t ++ trail).reverse).reverse = t
  rw [List.reverse_append, trimLeft_append_of_blank hback,
    trimLeft_eq_self (by rwa [List.head?_reverse]), List.reverse_reverse]

theorem Strips.trim_eq {t core : Text} (h : Strips t core) : t.trim = core := by
  obtain ⟨⟨lead, trail, rfl, hlead, htrail⟩, hhead, hlast⟩ := h
  rw [trim, trimLeft_append_of_blank hlead]
  cases core with
  | nil =>
    rw [List.nil_append, trimLeft_of_blank htrail]
    rfl
  | cons c core =>
    have hfront : trimLeft (c :: core ++ trail) = c :: core ++ trail := trimLeft_eq_self hhead
    rw [hfront]
    exact trimRight_append_of_blank htrail hlast

theorem head?_dropWhile_isBlank (t : Text) :
    ∀ c ∈ (t.dropWhile CodePoint.isBlank).head?, c.isBlank = false := by
  intro c hc
  have hnot := List.head?_dropWhile_not CodePoint.isBlank t
  rw [Option.mem_def.mp hc] at hnot
  exact hnot

theorem strips_trim (t : Text) : Strips t t.trim := by
  -- what is cut off in front, and what is then cut off behind
  let rest := trimLeft t
  have hlead : t = t.takeWhile CodePoint.isBlank ++ rest :=
    List.takeWhile_append_dropWhile.symm
  have htrail : rest = t.trim ++ (rest.reverse.takeWhile CodePoint.isBlank).reverse := by
    show rest = (rest.reverse.dropWhile CodePoint.isBlank).reverse ++ _
    rw [← List.reverse_append, List.takeWhile_append_dropWhile, List.reverse_reverse]
  have hlast : ∀ c ∈ t.trim.getLast?, c.isBlank = false := by
    show ∀ c ∈ (rest.reverse.dropWhile CodePoint.isBlank).reverse.getLast?, _
    rw [List.getLast?_reverse]
    exact head?_dropWhile_isBlank _
  have hhead : ∀ c ∈ t.trim.head?, c.isBlank = false := by
    intro c hc
    apply head?_dropWhile_isBlank t c
    show c ∈ rest.head?
    rw [htrail, List.head?_append, Option.mem_def.mp hc]
    rfl
  refine ⟨⟨t.takeWhile CodePoint.isBlank, (rest.reverse.takeWhile CodePoint.isBlank).reverse,
    ?_, ?_, ?_⟩, hhead, hlast⟩
  · rw [← htrail]
    exact hlead
  · exact fun c hc => List.mem_takeWhile_imp hc
  · exact fun c hc => List.mem_takeWhile_imp (List.mem_reverse.mp hc)

/-- What is left without the blanks is determined. -/
theorem strips_iff {t core : Text} : Strips t core ↔ core = t.trim :=
  ⟨fun h => h.trim_eq.symm, fun h => h ▸ strips_trim t⟩

end Text

end SelectorForge
