import SelectorForge.Json.Basic
import SelectorForge.Selector.Combination

/-!
# Values and stores

A value is a scalar or a reference to a node of a store: a container, or an object with attributes.
Two references may lead to one node, nodes may lead back to themselves, and what is changed through
one reference shows through all others. An object can be given a table of the store for its
attributes, and then a change of the one is a change of the other.
-/

namespace SelectorForge

abbrev Ref := Nat

inductive Value
  | null
  | bool (b : Bool)
  | int (n : Int)
  | float (x : Double)
  | str (t : Text)
  | octets (bytes : List UInt8)
  | stage (s : Stage)
  | combinator (c : Combinator)
  | ref (r : Ref)
deriving DecidableEq, Repr, Inhabited

/-- The errors that can also stand as objects in a store. -/
inductive ErrorKind
  | general
  | order
  | duplicate
deriving DecidableEq, Repr

/-- What an error keeps apart from its attributes: the tuple of the arguments it was made with, if
it was made with any, and what else belongs to every error, by name. -/
structure ErrorCore where
  arguments : Option Ref := none
  further : Fields Value := []
deriving DecidableEq, Repr

/-- The kinds of objects with attributes. `plain` is any object without further meaning, `fixed`
one that has a text of its own. -/
inductive Kind
  | plain
  | fixed
  | rectangle
  | config
  | combination
  | selector
  | builder
  | error (kind : ErrorKind) (core : ErrorCore)
deriving DecidableEq, Repr

/-- An object keeps its attributes by itself or shares a table with whoever else refers to it. -/
inductive Attributes
  | own (fields : Fields Value)
  | shared (table : Ref)
deriving DecidableEq, Repr

/-- A `point` has two places instead of attributes, a `sealed` object has nothing. -/
inductive Node
  | list (items : List Value)
  | tuple (items : List Value)
  | set (items : List Value)
  | table (entries : List (Value × Value))
  | record (kind : Kind) (attributes : Attributes)
  | point (x y : Option Value)
  | sealed
deriving DecidableEq, Repr, Inhabited

/-! ### stores -/

/-- The nodes, and what the members of enumerations have been given on top of what they are. -/
structure Store where
  nodes : Array Node := #[]
  given : List (Value × Fields Value) := []
deriving DecidableEq, Repr, Inhabited

namespace Store

def size (st : Store) : Nat := st.nodes.size

/-- Behind a reference that leads nowhere there is a sealed object. -/
def node (st : Store) (r : Ref) : Node := st.nodes[r]?.getD .sealed

/-- A new node, and the store with it. -/
def alloc (st : Store) (n : Node) : Value × Store :=
  (.ref st.size, { st with nodes := st.nodes.push n })

def write (st : Store) (r : Ref) (n : Node) : Store :=
  { st with nodes := st.nodes.setIfInBounds r n }

theorem place_alloc (st : Store) (n : Node) : (st.alloc n).1 = .ref st.size := rfl

theorem size_alloc (st : Store) (n : Node) : (st.alloc n).2.size = st.size + 1 := by
  simp [alloc, size]

theorem size_lt_alloc (st : Store) (n : Node) : st.size < (st.alloc n).2.size := by
  rw [size_alloc]
  exact Nat.lt_succ_self _

theorem size_write (st : Store) (r : Ref) (n : Node) : (st.write r n).size = st.size := by
  simp [write, size]

theorem node_alloc (st : Store) (n : Node) (r : Ref) (h : r < st.size) :
    (st.alloc n).2.node r = st.node r := by
  simp only [size] at h
  simp only [alloc, node, Array.getElem?_push]
  rw [if_neg (Nat.ne_of_lt h)]

theorem node_alloc_self (st : Store) (n : Node) : (st.alloc n).2.node st.size = n := by
  simp [alloc, node, size]

theorem node_write_of_ne (st : Store) {r r' : Ref} (n : Node) (h : r ≠ r') :
    (st.write r n).node r' = st.node r' := by
  simp [write, node, h]

theorem node_write_self (st : Store) {r : Ref} (n : Node) (h : r < st.size) :
    (st.write r n).node r = n := by
  simp only [size] at h
  simp [write, node, h]

theorem lt_size_of_node_ne {st : Store} {r : Ref} (h : st.node r ≠ .sealed) : r < st.size := by
  refine Nat.lt_of_not_le fun hle => h ?_
  rw [node, Array.getElem?_eq_none hle]
  rfl

end Store

/-! ### names of kinds -/

def ErrorKind.name : ErrorKind → Text
  | .general => "SelectorError"
  | .order => "OrderViolationError"
  | .duplicate => "DuplicateFragmentError"

def Kind.name : Kind → Text
  | .plain => "Plain"
  | .fixed => "Fixed"
  | .rectangle => "Rectangle"
  | .config => "BuilderConfig"
  | .combination => "CombinedSelector"
  | .selector => "SimpleSelector"
  | .builder => "CssSelectorBuilder"
  | .error kind _ => kind.name

def Node.typeName : Node → Text
  | .list _ => "list"
  | .tuple _ => "tuple"
  | .set _ => "set"
  | .table _ => "dict"
  | .record kind _ => kind.name
  | .point _ _ => "Point"
  | .sealed => "Opaque"

namespace Store

/-- The kind of a value as messages name it. -/
def typeName (st : Store) : Value → Text
  | .null => "NoneType"
  | .bool _ => "bool"
  | .int _ => "int"
  | .float _ => "float"
  | .str _ => "str"
  | .octets _ => "bytes"
  | .stage _ => "Stage"
  | .combinator _ => "Combinator"
  | .ref r => (st.node r).typeName

def isBuilder (st : Store) : Value → Bool
  | .ref r =>
    match st.node r with
    | .record .builder _ => true
    | _ => false
  | _ => false

end Store

end SelectorForge
