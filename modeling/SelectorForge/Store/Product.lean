import SelectorForge.Store.Attribute

/-!
# Products

The area of a rectangle is the product of its two sides, whatever they are: numbers are
multiplied, in floating point if one of them is; a sequence is repeated as often as an integer
says.
-/

namespace SelectorForge.Store

/-- Sequences, which can be repeated. -/
inductive Sequence
  | text (t : Text)
  | octets (bytes : List UInt8)
  | list (items : List Value)
  | tuple (items : List Value)

namespace Sequence

def length : Sequence → Nat
  | .text t => t.length
  | .octets bytes => bytes.length
  | .list items | .tuple items => items.length

/-- Counts have to fit into an index, and so has the length of the result. -/
def indexBound : Nat := 9223372036854775808

/-- From this length on a result is taken to exhaust the memory. The number stands for the bound that
the memory of a machine sets; of itself a sequence may be as long as `indexBound` allows. -/
def lengthBound : Nat := 1073741824

private def copies {α : Type} (n : Nat) (items : List α) : List α :=
  (List.replicate n items).flatten

def repeated (st : Store) (s : Sequence) (count : Int) : Except Fault (Value × Store) :=
  if (indexBound : Int) ≤ count ∨ count < -(indexBound : Int) then .error .countTooLarge
  else
    let n := count.toNat
    let n := if s.length = 0 then 0 else n
    if indexBound ≤ s.length * n then
      match s with
      | .text _ => .error .textTooLong
      | .octets _ => .error .octetsTooLong
      | _ => .error .memoryExhausted
    else if lengthBound ≤ s.length * n then .error .memoryExhausted
    else
      match s with
      | .text t => .ok (.str (copies n t), st)
      | .octets bytes => .ok (.octets (copies n bytes), st)
      | .list items => .ok (st.alloc (.list (copies n items)))
      | .tuple items => .ok (st.alloc (.tuple (copies n items)))

end Sequence

def asSequence? (st : Store) : Value → Option Sequence
  | .str t => some (.text t)
  | .combinator c => some (.text c.text)
  | .octets bytes => some (.octets bytes)
  | .ref r =>
    match st.node r with
    | .list items => some (.list items)
    | .tuple items => some (.tuple items)
    | _ => none
  | _ => none

/-- A number in floating point; nothing for what is no number. -/
def asDouble? : Value → Option (Except Fault Double)
  | .float x => some (.ok x)
  | v => (asInt? v).map fun n =>
    match Double.ofInt? n with
    | some x => .ok x
    | none => .error .integerTooLarge

/-- The product of two numbers; nothing if one of the values is no number. -/
def numberProduct? (a b : Value) : Option (Except Fault Value) :=
  match asInt? a, asInt? b with
  | some m, some n => some (.ok (.int (m * n)))
  | _, _ =>
    match asDouble? a, asDouble? b with
    | some x, some y => some do
      let x ← x
      let y ← y
      .ok (.float (x.mul y))
    | _, _ => none

def repeatBy (st : Store) (s : Sequence) (count : Value) : Except Fault (Value × Store) :=
  match asInt? count with
  | some n => s.repeated st n
  | none => .error (.cannotRepeat (st.typeName count))

def product (st : Store) (a b : Value) : Except Fault (Value × Store) :=
  match numberProduct? a b with
  | some r => r.map fun v => (v, st)
  | none =>
    match st.asSequence? a, st.asSequence? b with
    | some s, _ => st.repeatBy s b
    | none, some s => st.repeatBy s a
    | none, none => .error (.cannotMultiply (st.typeName a) (st.typeName b))

/-- The area of a rectangle; other objects have none. -/
def area (st : Store) (v : Value) : Except Fault (Value × Store) :=
  match v with
  | .ref r =>
    match st.node r with
    | .record .rectangle attributes => do
      st.checkCallable (st.fields attributes) Name.area
      let width ← recordAttribute .rectangle (st.fields attributes) Name.width
      let height ← recordAttribute .rectangle (st.fields attributes) Name.height
      st.product width height
    | _ => st.callMissing v Name.area
  | v => st.callMissing v Name.area

end SelectorForge.Store
