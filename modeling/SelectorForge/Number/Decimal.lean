import SelectorForge.Text.Basic

/-!
# Decimal integers

* `naturalText`, `integerText`   the decimal digits of a number, with a sign if it is negative;
* `digitsValue`                  the number that a row of digits spells;
* `FitsDigits`                   no more digits than can be read or written.
-/

namespace SelectorForge.Number

def naturalText (n : Nat) : Text := (Nat.toDigits 10 n).map CodePoint.ofChar

def integerText (n : Int) : Text :=
  if n < 0 then CodePoint.hyphen :: naturalText n.natAbs else naturalText n.natAbs

def digitsValue (t : Text) : Nat := t.foldl (fun n c => 10 * n + (c.val - 0x30)) 0

def powerOfTen (n : Nat) : Nat := Nat.pow 10 n
def powerOfTwo (n : Nat) : Nat := Nat.pow 2 n

/-- The most digits that an integer is read from or written with. -/
def digitLimit : Nat := 4300

def FitsDigits (n : Int) : Prop := n.natAbs < powerOfTen digitLimit

instance (n : Int) : Decidable (FitsDigits n) := inferInstanceAs (Decidable (_ < _))

/-! ### written and read back -/

theorem digitsValue_naturalText (n : Nat) : digitsValue (naturalText n) = n := by
  have h := Nat.ofDigitChars_toDigits (b := 10) (n := n) (by decide) (by decide)
  rw [Nat.ofDigitChars_eq_foldl] at h
  rw [digitsValue, naturalText, List.foldl_map]
  exact h

theorem isDigit_of_mem_naturalText {n : Nat} {c : CodePoint} (h : c ∈ naturalText n) :
    c.isDigit = true := by
  obtain ⟨d, hd, rfl⟩ := List.mem_map.mp h
  have hd := Nat.isDigit_of_mem_toDigits (by decide) (by decide) hd
  simp only [Char.isDigit, Bool.and_eq_true, decide_eq_true_eq] at hd
  exact decide_eq_true ⟨UInt32.le_iff_toNat_le.mp hd.1, UInt32.le_iff_toNat_le.mp hd.2⟩

theorem naturalText_ne_nil (n : Nat) : naturalText n ≠ [] := by
  simp [naturalText, Nat.toDigits_ne_nil]

theorem integerText_ofNat (n : Nat) : integerText n = naturalText n := by
  simp [integerText]

theorem length_naturalText_le_iff (n : Nat) {k : Nat} (hk : 0 < k) :
    (naturalText n).length ≤ k ↔ n < powerOfTen k := by
  rw [naturalText, List.length_map]
  exact Nat.length_toDigits_le_iff (by decide) hk

end SelectorForge.Number
