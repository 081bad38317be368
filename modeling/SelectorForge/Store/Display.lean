import SelectorForge.Store.Attribute

/-!
# Displaying values

* `shown`       the form that tells values apart: texts are quoted, objects name their kind;
* `plain`       the form that is put into other texts: a text is itself, a selector its own text;
* `rendered`    the text of a selector, a combination or an object with a fixed text.

A container that holds itself is cut off where it comes up again; `fuel` bounds the depth of what
is not cut off.
-/

namespace SelectorForge.Store

open Text

def commaSpace : Text := ", "

def enclosed (opening closing : String) (parts : List Text) : Text :=
  Text.ofString opening ++ commaSpace.intercalate parts ++ Text.ofString closing

def shownInt (n : Int) : Except Fault Text :=
  if Number.FitsDigits n then .ok (Number.integerText n) else .error .tooManyDigits

def shownStage (s : Stage) : Text :=
  ("<Stage." : Text) ++ s.memberName ++ (": " : Text) ++ Number.naturalText s.ordinal
    ++ (">" : Text)

def shownCombinator (c : Combinator) : Text :=
  ("<Combinator." : Text) ++ c.memberName ++ (": " : Text) ++ c.text.quoted ++ (">" : Text)

def shownScalar : Value → Except Fault Text
  | .null => .ok "None"
  | .bool true => .ok "True"
  | .bool false => .ok "False"
  | .int n => shownInt n
  | .float x => .ok (x.text Double.displayed)
  | .str t => .ok t.quoted
  | .octets bytes => .ok (Text.quotedOctets bytes)
  | .stage s => .ok (shownStage s)
  | .combinator c => .ok (shownCombinator c)
  | .ref _ => .error .tooDeep

/-- A fragment with its mark in front. -/
def marked (mark : String) (t : Text) : Text := Text.ofString mark ++ t

def bracketed (t : Text) : Text := ("[" : Text) ++ t ++ ("]" : Text)

/-- What is to join attribute fragments: a text, octets, or a value of some kind that stands where
an operation that joins should stand. -/
inductive Joiner
  | text (t : Text)
  | octets
  | value (type : Text)

def joiner (st : Store) (v : Value) : Except Fault Joiner :=
  match asText? v, v with
  | some t, _ => .ok (.text t)
  | none, .octets _ => .ok .octets
  | none, v => (st.lookup v Name.join).map fun found => .value (st.typeName found)

/-- A value is found to join nothing before the fragments are looked at. -/
def Joiner.check : Joiner → Except Fault Unit
  | .value type => .error (.notCallable type)
  | _ => .ok ()

/-- The attribute fragments in one part. Octets join no texts, so they make a part only of none,
and that is no text. -/
def Joiner.join (parts : List Text) : Joiner → Except Fault (Option Text)
  | .text separator => .ok (some (separator.intercalate parts))
  | .octets => if parts.isEmpty then .ok none else .error .notOctets
  | .value type => .error (.notCallable type)

mutual

def shown (st : Store) : Nat → List Ref → Value → Except Fault Text
  | 0, _, _ => .error .tooDeepToShow
  | fuel + 1, path, v =>
    match v with
    | .ref r =>
      match st.node r with
      | .list items =>
        if r ∈ path then .ok "[...]"
        else (items.mapM (shown st fuel (r :: path))).map (enclosed "[" "]")
      | .tuple items =>
        if r ∈ path then .ok "(...)"
        else (items.mapM (shown st fuel (r :: path))).map fun
          | [part] => ("(" : Text) ++ part ++ (",)" : Text)
          | parts => enclosed "(" ")" parts
      | .set items =>
        if items.isEmpty then .ok "set()"
        else if r ∈ path then .ok "set(...)"
        else (items.mapM (shown st fuel (r :: path))).map (enclosed "\x7b" "\x7d")
      | .table entries =>
        if r ∈ path then .ok "\x7b...\x7d"
        else (entries.mapM fun (key, value) => do
          let k ← shown st fuel (r :: path) key
          let v ← shown st fuel (r :: path) value
          .ok (k ++ (": " : Text) ++ v)).map (enclosed "\x7b" "\x7d")
      | .sealed => .ok "Opaque()"
      | .point _ _ => shownFields st fuel path r "Point" [Name.x, Name.y]
      | .record kind _ =>
        match kind with
        | .plain => .ok "Plain()"
        | .fixed | .builder => .ok (("<" : Text) ++ kind.name ++ (" object>" : Text))
        | .error _ core =>
          match core.arguments, st.argumentsOf core with
          | _, [argument] =>
            (shown st fuel path argument).map fun part => kind.name ++ enclosed "(" ")" [part]
          | some r, _ => (shown st fuel path (.ref r)).map fun t => kind.name ++ t
          | none, _ => .ok (kind.name ++ ("()" : Text))
        | .selector => do
          let t ← rendered st fuel path (.ref r)
          let t ← shown st fuel path t
          .ok (kind.name ++ ("(" : Text) ++ t ++ (")" : Text))
        | .rectangle | .config | .combination =>
          shownFields st fuel path r kind.name (kind.declared?.getD [])
    | v => shownScalar v

/-- An object by its declared attributes. -/
def shownFields (st : Store) : Nat → List Ref → Ref → Text → List Text → Except Fault Text
  | 0, _, _, _, _ => .error .tooDeep
  | fuel + 1, path, r, name, fields =>
    if r ∈ path then .ok "..."
    else do
      let parts ← fields.mapM fun field => do
        let v ← st.lookup (.ref r) field
        let t ← shown st fuel (r :: path) v
        .ok (field ++ ("=" : Text) ++ t)
      .ok (name ++ enclosed "(" ")" parts)

def plain (st : Store) : Nat → List Ref → Value → Except Fault Text
  | 0, _, _ => .error .tooDeepToPrint
  | fuel + 1, path, v =>
    match v with
    | .str t => .ok t
    | .combinator c => .ok c.text
    | .stage s => .ok (Number.naturalText s.ordinal)
    | .ref r =>
      match st.node r with
      | .record .selector _ | .record .combination _ => do
        let t ← rendered st fuel path v
        plain st fuel path t
      | .record (.error _ core) _ =>
        match core.arguments, st.argumentsOf core with
        | _, [] => .ok []
        | _, [argument] => plain st fuel path argument
        | some r, _ => shown st fuel path (.ref r)
        | none, _ => .ok []
      | _ => shown st fuel path v
    | v => shownScalar v

def rendered (st : Store) : Nat → List Ref → Value → Except Fault Value
  | 0, _, _ => .error .tooDeep
  | fuel + 1, path, v =>
    match v with
    | .ref r =>
      match st.node r with
      | .record .selector attributes => do
        let fields := st.fields attributes
        st.checkCallable fields Name.render
        (selectorText st fuel path fields).map .str
      | .record .combination attributes => do
        let fields := st.fields attributes
        st.checkCallable fields Name.render
        (combinationText st fuel path fields).map .str
      | .record .fixed attributes => do
        let fields := st.fields attributes
        st.checkCallable fields Name.render
        recordAttribute .fixed fields Name.text
      | _ => st.callMissing v Name.render
    | v => st.callMissing v Name.render

/-- The parts in the order of the stages; only the first may be something else than a text. -/
def selectorText (st : Store) : Nat → List Ref → Fields Value → Except Fault Text
  | 0, _, _ => .error .tooDeep
  | fuel + 1, path, attributes => do
    let get := recordAttribute .selector attributes
    let element ← get Name.ownElement
    let id ← get Name.ownId
    let idPart ← if id = .null then .ok [] else (plain st fuel path id).map (marked "#")
    let classes ← st.items (← get Name.ownClasses)
    let classParts ← classes.mapM fun v => (plain st fuel path v).map (marked ".")
    let separator ← st.joiner (← st.lookup (← get Name.ownConfig) Name.separator)
    let conditions ← st.items (← get Name.ownAttributes)
    separator.check
    let conditionParts ← conditions.mapM fun v => (plain st fuel path v).map bracketed
    let conditionPart ← separator.join conditionParts
    let pseudoClasses ← st.items (← get Name.ownPseudoClasses)
    let pseudoClassParts ← pseudoClasses.mapM fun v => (plain st fuel path v).map (marked ":")
    let pseudoElement ← get Name.ownPseudoElement
    let pseudoElementPart ←
      if pseudoElement = .null then .ok [] else (plain st fuel path pseudoElement).map (marked "::")
    let elementPart ←
      if st.truthy element then
        match asText? element with
        | some t => .ok t
        | none => .error (.notText 0 (st.typeName element))
      else .ok []
    match conditionPart with
    | some conditionPart =>
      .ok (elementPart ++ idPart ++ classParts.flatten ++ conditionPart
        ++ pseudoClassParts.flatten ++ pseudoElementPart)
    | none => .error (.notText 3 "bytes")

/-- The combinator has to be a text only where it is stripped of its blanks. -/
def combinationText (st : Store) : Nat → List Ref → Fields Value → Except Fault Text
  | 0, _, _ => .error .tooDeep
  | fuel + 1, path, attributes => do
    let get := recordAttribute .combination attributes
    let pad ← get Name.pad
    if st.truthy pad then do
      let left ← plain st fuel path (← get Name.left)
      let combinator ← plain st fuel path (← get Name.combinator)
      let right ← plain st fuel path (← get Name.right)
      .ok (left ++ Combination.token true combinator ++ right)
    else do
      let combinator ← get Name.combinator
      let token ← match asText? combinator with
        | some t => .ok (Combination.token false t)
        | none => st.callMissing combinator Name.strip
      let left ← plain st fuel path (← get Name.left)
      let right ← plain st fuel path (← get Name.right)
      .ok (left ++ token ++ right)

end

/-- A node comes up at most once on the way to a part that is not cut off, with a few steps for
each. -/
def displayFuel (st : Store) : Nat := 4 * st.size + 4

def showValue (st : Store) (v : Value) : Except Fault Text := st.shown st.displayFuel [] v
def plainText (st : Store) (v : Value) : Except Fault Text := st.plain st.displayFuel [] v
def renderValue (st : Store) (v : Value) : Except Fault Value :=
  st.rendered st.displayFuel [] v

end SelectorForge.Store
