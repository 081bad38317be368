import SelectorForge.Selector.Stage

/-!
# Names

The names that mean something: the attributes and operations of the objects that belong to the
library, and the names under which any object keeps something of its own.
-/

namespace SelectorForge

namespace Name

/-! the attributes of a selector -/

def ownConfig : Text := "_config"
def ownStage : Text := "_stage"
def ownElement : Text := "_element"
def ownId : Text := "_id"
def ownClasses : Text := "_classes"
def ownAttributes : Text := "_attributes"
def ownPseudoClasses : Text := "_pseudo_classes"
def ownPseudoElement : Text := "_pseudo_element"

/-! operations behind the others -/

def moveUp : Text := "_advance"
def fresh : Text := "_new"

/-! further attributes and operations -/

def config : Text := "config"
def separator : Text := "attribute_separator"
def pad : Text := "pad_combinator"
def left : Text := "left"
def combinator : Text := "combinator"
def right : Text := "right"
def width : Text := "width"
def height : Text := "height"
def x : Text := "x"
def y : Text := "y"
def stage : Text := "stage"
def text : Text := "text"
def name : Text := "name"
def value : Text := "value"
def label : Text := "label"
def render : Text := "stringify"
def combine : Text := "combine"
def area : Text := "area"
def strip : Text := "strip"
def join : Text := "join"
def append : Text := "append"

/-! the properties of a selector -/

def elementName : Text := "element_name"
def idName : Text := "id_name"
def classNames : Text := "class_names"
def attributes : Text := "attributes"
def pseudoClasses : Text := "pseudo_classes"
def pseudoElementName : Text := "pseudo_element_name"

/-! names that attributes do not hide -/

def attributeTable : Text := "__dict__"
def kind : Text := "__class__"
def weakReferences : Text := "__weakref__"
def arguments : Text := "args"
def cause : Text := "__cause__"
def context : Text := "__context__"
def trace : Text := "__traceback__"
def hidesContext : Text := "__suppress_context__"

/-! names under which an attribute changes how an object is copied -/

def copyHook : Text := "__deepcopy__"
def partsHook : Text := "__reduce_ex__"
def olderPartsHook : Text := "__reduce__"
def stateHook : Text := "__getstate__"
def places : Text := "__slots__"
def declaredTable : Text := "__dataclass_fields__"
def values : Text := "values"
def role : Text := "_field_type"

/-! what a member of an enumeration is made of -/

def memberValue : Text := "_value_"
def memberName : Text := "_name_"
def memberPlace : Text := "_sort_order_"
def memberKind : Text := "__objclass__"
def memberSearch : Text := "from_name"

/-! the parts of a number -/

def real : Text := "real"
def imaginary : Text := "imag"
def numerator : Text := "numerator"
def denominator : Text := "denominator"

/-- The operation that appends a fragment. -/
def ofStage : Stage → Text
  | .element => "element"
  | .id => "id"
  | .styleClass => "class_"
  | .attr => "attr"
  | .pseudoClass => "pseudo_class"
  | .pseudoElement => "pseudo_element"

/-- The attribute that holds the fragments of a stage. -/
def slot : Stage → Text
  | .element => ownElement
  | .id => ownId
  | .styleClass => ownClasses
  | .attr => ownAttributes
  | .pseudoClass => ownPseudoClasses
  | .pseudoElement => ownPseudoElement

end Name

end SelectorForge
