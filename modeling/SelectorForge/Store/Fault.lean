import SelectorForge.Json.Reader
import SelectorForge.Selector.Compound

/-!
# Faults

Everything that can go wrong with the values of a store, as causes, and the wording of each.
Types are named as messages name them.
-/

namespace SelectorForge

inductive Fault
  /- selectors -/
  | rejected (rejection : Rejection)
  /- documents -/
  | unreadable (error : Json.Error)
  | notAnObject (type : Text)
  | noAttributeTable
  | templateNeedsValue
  | circular
  | notSerialisable (type : Text)
  | badKey (type : Text)
  | tooManyDigits
  | tooDeep
  | tooDeepToShow
  | tooDeepToPrint
  | tooDeepToCompare
  /- attributes -/
  | noAttribute (type name : Text)
  | emptyPlace (name : Text)
  | noSetter (property type : Text)
  | noDeleter (property type : Text)
  | frozenAssign (name : Text)
  | frozenDelete (name : Text)
  | memberAssign (name : Text)
  | memberDelete (name : Text)
  | notWritable (name type : Text)
  | notReferable
  | notAKind (type : Text)
  | kindDelete
  | notATable (type : Text)
  | tableDelete
  | unboundName (name : Text)
  /- what belongs to errors -/
  | messageMissing (type : Text)
  | argumentsLeft (type : Text) (messageOptional : Bool) (count : Nat)
  | notALink (name : Text)
  | notATrace
  | notATruthValue
  | coreDelete (name : Text)
  | truthDelete
  /- operations -/
  | nameNotText (type : Text)
  | notCallable (type : Text)
  | notIterable (type : Text)
  | unhashable (type : Text)
  | notComparable (type : Text)
  | notText (position : Nat) (type : Text)
  | notOctets
  | notCopyable (type : Text)
  | placesWithoutState
  | cannotRepeat (type : Text)
  | cannotMultiply (left right : Text)
  | integerTooLarge
  | countTooLarge
  | textTooLong
  | octetsTooLong
  | memoryExhausted
deriving DecidableEq, Repr

namespace Fault

/-- A name between marks. -/
def marked (name : Text) : Text :=
  CodePoint.apostrophe :: name ++ [CodePoint.apostrophe]

def message : Fault → Text
  /- selectors -/
  | .rejected rejection => rejection.message
  /- documents -/
  | .unreadable error => error.message
  | .notAnObject type => ("Expected a JSON object, got " : Text) ++ type
  | .noAttributeTable => "vars() argument must have __dict__ attribute"
  | .templateNeedsValue => "Enum.__new__() missing 1 required positional argument: 'value'"
  | .circular => "Circular reference detected"
  | .notSerialisable type =>
    ("Object of type " : Text) ++ type ++ (" is not JSON serializable" : Text)
  | .badKey type => ("keys must be str, int, float, bool or None, not " : Text) ++ type
  | .tooManyDigits =>
    ("Exceeds the limit (4300 digits) for integer string conversion; " : Text)
      ++ ("use sys.set_int_max_str_digits() to increase the limit" : Text)
  | .tooDeep => "maximum recursion depth exceeded"
  | .tooDeepToShow => "maximum recursion depth exceeded while getting the repr of an object"
  | .tooDeepToPrint => "maximum recursion depth exceeded while getting the str of an object"
  | .tooDeepToCompare => "maximum recursion depth exceeded in comparison"
  /- attributes -/
  | .noAttribute type name => marked type ++ (" object has no attribute " : Text) ++ marked name
  | .emptyPlace name => name
  | .noSetter property type =>
    ("property " : Text) ++ marked property ++ (" of " : Text) ++ marked type
      ++ (" object has no setter" : Text)
  | .noDeleter property type =>
    ("property " : Text) ++ marked property ++ (" of " : Text) ++ marked type
      ++ (" object has no deleter" : Text)
  | .frozenAssign name => ("cannot assign to field " : Text) ++ name.quoted
  | .frozenDelete name => ("cannot delete field " : Text) ++ name.quoted
  | .memberAssign name => ("<enum 'Enum'> cannot set attribute " : Text) ++ name.quoted
  | .memberDelete name => ("<enum 'Enum'> cannot delete attribute " : Text) ++ name.quoted
  | .notWritable name type =>
    ("attribute " : Text) ++ marked name ++ (" of " : Text) ++ marked type
      ++ (" objects is not writable" : Text)
  | .notReferable => "This object has no __weakref__"
  | .notAKind type =>
    ("__class__ must be set to a class, not " : Text) ++ marked type ++ (" object" : Text)
  | .kindDelete => "can't delete __class__ attribute"
  | .notATable type => ("__dict__ must be set to a dictionary, not a " : Text) ++ marked type
  | .tableDelete => "cannot delete __dict__"
  | .unboundName name => name.quoted
  /- what belongs to errors -/
  | .messageMissing type =>
    type ++ (".__init__() missing 1 required positional argument: 'message'" : Text)
  | .argumentsLeft type messageOptional count =>
    type ++ (".__init__() takes " : Text)
      ++ (if messageOptional then ("from 1 to 2" : Text) else ("2" : Text))
      ++ (" positional arguments but " : Text) ++ Number.naturalText (count + 1)
      ++ (" were given" : Text)
  | .notALink name =>
    ("exception " : Text) ++ name ++ (" must be None or derive from BaseException" : Text)
  | .notATrace => "__traceback__ must be a traceback or None"
  | .notATruthValue => "attribute value type must be bool"
  | .coreDelete name => name ++ (" may not be deleted" : Text)
  | .truthDelete => "can't delete numeric/char attribute"
  /- operations -/
  | .nameNotText type => ("attribute name must be string, not " : Text) ++ marked type
  | .notCallable type => marked type ++ (" object is not callable" : Text)
  | .notIterable type => marked type ++ (" object is not iterable" : Text)
  | .unhashable type => ("unhashable type: " : Text) ++ marked type
  | .notComparable type =>
    ("'>' not supported between instances of " : Text) ++ marked type ++ (" and 'Stage'" : Text)
  | .notText position type =>
    ("sequence item " : Text) ++ Number.naturalText position
      ++ (": expected str instance, " : Text) ++ type ++ (" found" : Text)
  | .notOctets => "sequence item 0: expected a bytes-like object, str found"
  | .notCopyable type => ("un(deep)copyable object of type " : Text) ++ type
  | .placesWithoutState =>
    "a class that defines __slots__ without defining __getstate__ cannot be pickled"
  | .cannotRepeat type => ("can't multiply sequence by non-int of type " : Text) ++ marked type
  | .cannotMultiply left right =>
    ("unsupported operand type(s) for *: " : Text) ++ marked left ++ (" and " : Text)
      ++ marked right
  | .integerTooLarge => "int too large to convert to float"
  | .countTooLarge => "cannot fit 'int' into an index-sized integer"
  | .textTooLong => "repeated string is too long"
  | .octetsTooLong => "repeated bytes are too long"
  | .memoryExhausted => []

end Fault

end SelectorForge
