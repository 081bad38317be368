import SelectorForge.Number.Decimal

/-!
# Double precision numbers

Binary floating point with a significand of 53 bits: the numbers that JSON texts with a fraction
or an exponent are read as, their rounding (to the nearest, a tie to the even significand), their
comparison with integers and their product.
-/

namespace SelectorForge

/-- The exponent field is zero for the numbers without a leading bit; all numbers that are not a
number are one. -/
inductive Double
  | notANumber
  | infinity (negative : Bool)
  | finite (negative : Bool) (field : Fin 2047) (fraction : Fin 4503599627370496)
deriving DecidableEq, Repr

namespace Double

open Number

/-- The width of the fraction, `2 ^ 52`. -/
def fractionSpan : Nat := 4503599627370496

/-- A finite number is its significand times two to the `scale`, up to sign. -/
def significand (field : Fin 2047) (fraction : Fin 4503599627370496) : Nat :=
  if field.val = 0 then fraction.val else fractionSpan + fraction.val

def scale (field : Fin 2047) : Int := max (field.val : Int) 1 - 1075

def zero (negative : Bool) : Double := .finite negative 0 0

def isZero : Double → Bool
  | .finite _ field fraction => field.val == 0 && fraction.val == 0
  | _ => false

/-! ### rounding -/

/-- The integer nearest to a quotient, of two equally near the even one. -/
def roundQuotient (num den : Nat) : Nat :=
  let q := num / den
  let r := num % den
  if 2 * r < den then q
  else if 2 * r = den then q + q % 2
  else q + 1

/-- A positive significand below or at `2 ^ 53`, at a scale no smaller than the least one. -/
def assemble (negative : Bool) (m : Nat) (scale : Int) : Double :=
  let (m, scale) := if m = 2 * fractionSpan then (fractionSpan, scale + 1) else (m, scale)
  let field := if m < fractionSpan then 0 else (scale + 1075).toNat
  if h : field < 2047 then
    .finite negative ⟨field, h⟩ ⟨m % fractionSpan, Nat.mod_lt _ (by decide)⟩
  else .infinity negative

/-- The number nearest to a positive quotient. -/
def ofQuotient (negative : Bool) (num den : Nat) : Double :=
  let bound : Int := (num.log2 : Int) - den.log2
  let fits := if 0 ≤ bound then den * powerOfTwo bound.toNat ≤ num
    else den ≤ num * powerOfTwo (-bound).toNat
  let exponent := if fits then bound else bound - 1
  let scale := max (exponent - 52) (-1074)
  let m := if 0 ≤ scale then roundQuotient num (den * powerOfTwo scale.toNat)
    else roundQuotient (num * powerOfTwo (-scale).toNat) den
  assemble negative m scale

/-- The number nearest to `m * 2 ^ scale`. -/
def ofScaled (negative : Bool) (m : Nat) (scale : Int) : Double :=
  if m = 0 then zero negative
  else if 0 ≤ scale then ofQuotient negative (m * powerOfTwo scale.toNat) 1
  else ofQuotient negative m (powerOfTwo (-scale).toNat)

/-- The number nearest to `m * 10 ^ exponent`; far outside the range nothing is computed. -/
def ofDecimal (negative : Bool) (m : Nat) (exponent : Int) : Double :=
  let order := exponent + (naturalText m).length
  if m = 0 then zero negative
  else if 400 < order then .infinity negative
  else if order < -400 then zero negative
  else if 0 ≤ exponent then ofQuotient negative (m * powerOfTen exponent.toNat) 1
  else ofQuotient negative m (powerOfTen (-exponent).toNat)

/-- The nearest number, if it is finite. -/
def ofInt? (n : Int) : Option Double :=
  match ofScaled (decide (n < 0)) n.natAbs 0 with
  | .infinity _ => none
  | x => some x

/-! ### comparison and product -/

/-- An integer beside a finite number, both brought to the smaller of their scales. -/
def compareScaled (negative : Bool) (m : Nat) (scale : Int) (n : Int) : Ordering :=
  let signed : Int := if negative then -m else m
  if 0 ≤ scale then compare (signed * powerOfTwo scale.toNat) n
  else compare signed (n * powerOfTwo (-scale).toNat)

/-- Nothing for what is not a number. -/
def compareInt : Double → Int → Option Ordering
  | .notANumber, _ => none
  | .infinity negative, _ => some (if negative then .lt else .gt)
  | .finite negative field fraction, n =>
    some (compareScaled negative (significand field fraction) (scale field) n)

def equalsInt (x : Double) (n : Int) : Bool := x.compareInt n == some .eq

/-- The two zeros are equal, and what is not a number differs from itself. -/
def numericallyEqual (x y : Double) : Bool :=
  match x, y with
  | .notANumber, _ | _, .notANumber => false
  | x, y => (x.isZero && y.isZero) || decide (x = y)

def isNegative : Double → Bool
  | .notANumber => false
  | .infinity negative => negative
  | .finite negative _ _ => negative

def mul (x y : Double) : Double :=
  match x, y with
  | .notANumber, _ | _, .notANumber => .notANumber
  | .infinity a, y => if y.isZero then .notANumber else .infinity (a != y.isNegative)
  | x, .infinity b => if x.isZero then .notANumber else .infinity (x.isNegative != b)
  | .finite a e f, .finite b e' f' =>
    ofScaled (a != b) (significand e f * significand e' f') (scale e + scale e')

end Double

end SelectorForge
