import SelectorForge.Store.Keys

/-!
# The order of members

A set keeps its members in places, and the order of the places is the order of the members. A
member has a word, a number of 64 bits, and goes to the place that the word says; where that is
taken, the search goes on with the next ones and then from a place that further digits of the word
lead to. When three fifths of the places are taken, the members move to more places.

* `memberWord?`      the word of a member: equal members have equal words;
* `freePlace`        where a member comes to stand;
* `orderedMembers`   the members by their places.
-/

namespace SelectorForge.Store

/-! ### words -/

/-- Whole numbers count by their remainders, for which two to the power of 61 is one. -/
def wordModulus : Nat := 2305843009213693951

/-- Minus one shares the word of minus two. -/
def numberWord (negative : Bool) (n : Nat) : UInt64 :=
  if negative then 0 - UInt64.ofNat (if n = 1 then 2 else n) else UInt64.ofNat n

def intWord (n : Int) : UInt64 := numberWord (decide (n < 0)) (n.natAbs % wordModulus)

/-- A fraction has the word of the whole number to which it is equal for the modulus. -/
def doubleWord? : Double → Option UInt64
  | .notANumber => none
  | .infinity negative => some (numberWord negative 314159)
  | .finite negative field fraction =>
    let power := Number.powerOfTwo (Double.scale field % 61).toNat
    some (numberWord negative (Double.significand field fraction * power % wordModulus))

/-- One word made of several. -/
def joinedWord (words : List UInt64) : UInt64 :=
  let start : UInt64 := 2870177450012600261
  let sum := words.foldl (fun (sum word : UInt64) =>
    let sum := sum + word * 14029467366897019727
    (sum <<< 31 ||| sum >>> 33) * 11400714785074694791) start
  let sum := sum + (UInt64.ofNat words.length ^^^ start ^^^ 3527539)
  if sum + 1 = 0 then 1546275796 else sum

/-- The word of a member; nothing for one whose place is left open. -/
def memberWord? (st : Store) : Nat → Value → Option UInt64
  | 0, _ => none
  | _ + 1, .float x => doubleWord? x
  | _ + 1, .str t => if t.isEmpty then some 0 else none
  | _ + 1, .octets bytes => if bytes.isEmpty then some 0 else none
  | fuel + 1, .ref r =>
    match st.node r with
    | .tuple items => (items.mapM (memberWord? st fuel)).map joinedWord
    | .record kind _ => do
      let names ← kind.declared?
      let values ← names.mapM fun name => (st.lookup (.ref r) name).toOption
      (values.mapM (memberWord? st fuel)).map joinedWord
    | _ => none
  | _ + 1, v => (asInt? v).map intWord

/-! ### places -/

/-- A member with its word. -/
abbrev Worded := UInt64 × Value

abbrev Places := List (Option Worded)

/-- The places that are tried from a place on; near the last one there is only itself. -/
def neighbours (span place : Nat) : List Nat :=
  if place + 9 < span then List.range' place 10 else [place]

def freePlace (places : Places) : Nat → Nat → UInt64 → Nat
  | 0, place, _ => place
  | fuel + 1, place, word =>
    match (neighbours places.length place).find? fun i => places[i]?.join.isNone with
    | some i => i
    | none =>
      let word := word >>> 5
      freePlace places fuel ((5 * place + 1 + word.toNat) % places.length) word

/-- When no digits of the word are left, the search comes to every place. -/
def settle (places : Places) (member : Worded) : Places :=
  let span := places.length
  places.set (freePlace places (span + 14) (member.1.toNat % span) member.1) (some member)

/-- The least span, eight or twice as much and so on, above a bound. -/
def spanAbove (bound : Nat) : Nat → Nat → Nat
  | 0, span => span
  | fuel + 1, span => if bound < span then span else spanAbove bound fuel (2 * span)

/-- One more member; the members move when too many places are taken. -/
def takeIn (places : Places) (member : Worded) : Places :=
  let places := settle places member
  let members := places.filterMap id
  let count := members.length
  if 5 * count < 3 * (places.length - 1) then places
  else members.foldl settle (List.replicate (spanAbove (4 * count) (4 * count) 8) none)

/-- Members without words stand as they were taken in, and so do all others with them. -/
def orderedMembers (st : Store) (members : List Value) : List Value :=
  match members.mapM fun v => (memberWord? st (st.size + 1) v).map fun word => (word, v) with
  | none => members
  | some worded =>
    ((worded.foldl takeIn (List.replicate 8 none)).filterMap id).map Prod.snd

end SelectorForge.Store
