import SelectorForge.Store.Attribute

/-!
# Equality

Numbers are equal by value across their kinds, texts and combinators by their text, containers by
their items, objects with declared attributes by these; every other object only to itself. Inside
a container a value always equals itself, even one that is not a number.
-/

namespace SelectorForge.Store

/-- The outcome for two scalars, of which at least one is a number; nothing for others. -/
def numbersEqual? (a b : Value) : Option Bool :=
  match a, b with
  | .float x, .float y => some (x.numericallyEqual y)
  | .float x, b => (asInt? b).map x.equalsInt
  | a, .float y => (asInt? a).map y.equalsInt
  | a, b =>
    match asInt? a, asInt? b with
    | some m, some n => some (decide (m = n))
    | _, _ => none

def scalarsEqual (a b : Value) : Bool :=
  match numbersEqual? a b with
  | some e => e
  | none =>
    match asText? a, asText? b with
    | some s, some t => decide (s = t)
    | _, _ => decide (a = b)

/-- Whether a test holds for all pairs, the first failing one decides. -/
def allPairs (test : Value → Value → Except Fault Bool) :
    List Value → List Value → Except Fault Bool
  | a :: as, b :: bs => do
    if ← test a b then allPairs test as bs else .ok false
  | [], [] => .ok true
  | _, _ => .ok false

/-- The first entry that passes a test. -/
def findEntry (test : Value → Except Fault Bool) :
    List (Value × Value) → Except Fault (Option Value)
  | [] => .ok none
  | (key, value) :: rest => do
    if ← test key then .ok (some value) else findEntry test rest

/-- The attributes by which an object is compared; nothing for one that only equals itself. -/
def comparedAttributes? : Node → Option (List Text)
  | .record kind _ => kind.declared?
  | .point _ _ => some [Name.x, Name.y]
  | _ => none

/-- Objects are compared by their attributes only if they are of one kind. -/
def sameKind : Node → Node → Bool
  | .record k _, .record k' _ => decide (k = k')
  | .point _ _, .point _ _ => true
  | _, _ => false

/-- What equality means for two values, `within` for the values inside containers. -/
def equalBy (st : Store) (within : Value → Value → Except Fault Bool) (a b : Value) :
    Except Fault Bool :=
  match a, b with
  | .ref r, .ref r' =>
    let n := st.node r
    let n' := st.node r'
    match n, n' with
    | .list as, .list bs =>
      if as.length = bs.length then allPairs within as bs else .ok false
    | .tuple as, .tuple bs => allPairs within as bs
    | .set as, .set bs =>
      if as.length = bs.length then
        as.allM fun a => (findEntry (within a) (bs.map fun b => (b, b))).map Option.isSome
      else .ok false
    | .table as, .table bs =>
      if as.length = bs.length then
        as.allM fun (key, value) => do
          match ← findEntry (fun other => within other key) bs with
          | some other => within other value
          | none => .ok false
      else .ok false
    | n, n' =>
      match comparedAttributes? n with
      | some names =>
        if sameKind n n' then do
          let as ← names.mapM (st.lookup a)
          let bs ← names.mapM (st.lookup b)
          allPairs within as bs
        else .ok (decide (r = r'))
      | none => .ok (decide (r = r'))
  | .ref _, _ | _, .ref _ => .ok false
  | a, b => .ok (scalarsEqual a b)

/-- Inside a container a value is first compared with itself. -/
def equalWithin (st : Store) : Nat → Value → Value → Except Fault Bool
  | 0, _, _ => .error .tooDeepToCompare
  | fuel + 1, a, b => if a = b then .ok true else equalBy st (equalWithin st fuel) a b

/-- Containers that do not hold themselves are not nested deeper than there are nodes. -/
def equal (st : Store) (a b : Value) : Except Fault Bool :=
  equalBy st (equalWithin st (2 * st.size + 1)) a b

end SelectorForge.Store
