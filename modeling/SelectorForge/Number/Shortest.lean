import SelectorForge.Number.Double

/-!
# Shortest decimals

The text of a double precision number holds the fewest digits that read back as the number, and of
those the digits nearest to it. The search goes through the decimal grids with one, two, ... up to
seventeen digits and looks at the two grid points beside the number.
-/

namespace SelectorForge.Double

open Number
open CodePoint (hyphen plus point)

/-! ### the digits -/

/-- A positive number with the ends of the interval that rounds to it, over one denominator. -/
structure Neighbourhood where
  low : Nat
  value : Nat
  high : Nat
  den : Nat
  closed : Bool

/-- The distance to the next number below halves at a power of two. -/
def neighbourhood (field : Fin 2047) (fraction : Fin 4503599627370496) : Neighbourhood :=
  let m := significand field fraction
  let scale := scale field - 2
  let factor := powerOfTwo scale.toNat
  let below := if fraction.val = 0 ∧ 1 < field.val then 1 else 2
  ⟨(4 * m - below) * factor, 4 * m * factor, (4 * m + 2) * factor,
    powerOfTwo (-scale).toNat, m % 2 == 0⟩

namespace Neighbourhood

def contains (i : Neighbourhood) (c : Nat) : Bool :=
  if i.closed then decide (i.low ≤ c * i.den ∧ c * i.den ≤ i.high)
  else decide (i.low < c * i.den ∧ c * i.den < i.high)

/-- The same interval with `10 ^ power` as its unit. -/
def inUnit (i : Neighbourhood) (power : Int) : Neighbourhood :=
  let up := powerOfTen (-power).toNat
  { i with
    low := i.low * up
    value := i.value * up
    high := i.high * up
    den := i.den * powerOfTen power.toNat }

/-- The grid point beside the number that reads back, the nearer one if both do. -/
def gridPoint? (i : Neighbourhood) : Option Nat :=
  let c := i.value / i.den
  let r := i.value % i.den
  match i.contains c, i.contains (c + 1) with
  | true, true =>
    if 2 * r < i.den then some c
    else if 2 * r = i.den then some (c + c % 2)
    else some (c + 1)
  | true, false => some c
  | false, true => some (c + 1)
  | false, false => none

/-- How many powers of ten lift a number below one to one or above. -/
def lift (value den : Nat) : Nat → Nat
  | 0 => 0
  | fuel + 1 => if den ≤ value then 0 else lift (value * 10) den fuel + 1

/-- The number of digits before the point, negative if zeros follow the point. -/
def pointPosition (i : Neighbourhood) : Int :=
  if i.den ≤ i.value then (naturalText (i.value / i.den)).length
  else 1 - (lift i.value i.den 400 : Int)

/-- Grids with `17 - fuel` digits and more: the point found and the power of ten of its unit. -/
def search (i : Neighbourhood) (point : Int) : Nat → Nat × Int
  | 0 => ((i.inUnit (point - 17)).value / (i.inUnit (point - 17)).den, point - 17)
  | fuel + 1 =>
    let power := point - (17 - fuel)
    match (i.inUnit power).gridPoint? with
    | some c => (c, power)
    | none => search i point fuel

end Neighbourhood

/-- The digits without zeros at the end, and the place of the point counted from their start. -/
structure Digits where
  digits : Text
  point : Int
deriving DecidableEq, Repr

def shortest (field : Fin 2047) (fraction : Fin 4503599627370496) : Digits :=
  let i := neighbourhood field fraction
  let (c, power) := i.search i.pointPosition 17
  let written := naturalText c
  ⟨(written.reverse.dropWhile (· == CodePoint.zero)).reverse, power + written.length⟩

/-! ### the text -/

/-- Where a number is written without an exponent, and how the special values are spelled. -/
structure Layout where
  leastPoint : Int
  greatestPoint : Int
  notANumber : Text
  infinity : Text

/-- Positional from a ten-thousandth up to sixteen digits before the point. -/
def displayed : Layout := ⟨-3, 16, "nan", "inf"⟩

/-- As it is displayed, with the spelling of the special values that JSON readers know. -/
def serialised : Layout := ⟨-3, 16, "NaN", "Infinity"⟩

/-- At least one digit stands on each side of the point. -/
def positional (d : Digits) : Text :=
  let count : Int := d.digits.length
  if d.point ≤ 0 then
    CodePoint.zero :: point :: List.replicate (-d.point).toNat CodePoint.zero ++ d.digits
  else if count ≤ d.point then
    d.digits ++ List.replicate (d.point - count).toNat CodePoint.zero ++ [point, CodePoint.zero]
  else d.digits.take d.point.toNat ++ point :: d.digits.drop d.point.toNat

/-- A sign and at least two digits. -/
def exponentText (n : Int) : Text :=
  let written := naturalText n.natAbs
  (if n < 0 then hyphen else plus) ::
    (if written.length < 2 then CodePoint.zero :: written else written)

def scientific (d : Digits) : Text :=
  let fraction := d.digits.drop 1
  d.digits.take 1 ++ (if fraction = [] then [] else point :: fraction)
    ++ ('e' : CodePoint) :: exponentText (d.point - 1)

def unsignedText (l : Layout) : Double → Text
  | .notANumber => l.notANumber
  | .infinity _ => l.infinity
  | .finite _ field fraction =>
    if field.val = 0 ∧ fraction.val = 0 then positional ⟨[CodePoint.zero], 1⟩
    else
      let d := shortest field fraction
      if l.leastPoint ≤ d.point ∧ d.point ≤ l.greatestPoint then positional d else scientific d

def text (l : Layout) (x : Double) : Text :=
  if x.isNegative then hyphen :: unsignedText l x else unsignedText l x

end SelectorForge.Double
