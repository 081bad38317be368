import SelectorForge.Json.Writer

/-!
# Reading documents

A reader for JSON texts, strict but for three names of special numbers. Every failure knows what
was expected and how much of the text was left, which gives its line and column.

* `readString`   a string literal, after its opening quotation mark;
* `readNumber?`  the longest number at the front of a text;
* `readValue`    a value at the front of a text;
* `ofText`       the document of a whole text.

How deep a document is nested does not matter: `fuelFor` allows for as many steps as a text can call
for. A bound on how deep calls may be nested, as a machine sets it, is left out.
-/

namespace SelectorForge.Json

open CodePoint

/-! ### failures -/

/-- What is wrong with a text. -/
inductive Complaint
  | byteOrderMark
  | expectingValue
  | expectingName
  | expectingColon
  | expectingComma
  | extraData
  | controlInString
  | unterminatedString
  | invalidEscape
  | invalidUnitEscape
deriving DecidableEq, Repr

/-- A failure while reading, with the rest of the text from the place that is to blame. -/
inductive Failure
  | malformed (complaint : Complaint) (rest : Text)
  | tooManyDigits (count : Nat)
deriving DecidableEq, Repr

/-- Offset from the start of the text; lines and columns count from one. -/
structure Place where
  offset : Nat
  line : Nat
  column : Nat
deriving DecidableEq, Repr

inductive Error
  | malformed (complaint : Complaint) (place : Place)
  | tooManyDigits (count : Nat)
deriving DecidableEq, Repr

def Complaint.message : Complaint → Text
  | .byteOrderMark => "Unexpected UTF-8 BOM (decode using utf-8-sig)"
  | .expectingValue => "Expecting value"
  | .expectingName => "Expecting property name enclosed in double quotes"
  | .expectingColon => "Expecting ':' delimiter"
  | .expectingComma => "Expecting ',' delimiter"
  | .extraData => "Extra data"
  | .controlInString => "Invalid control character at"
  | .unterminatedString => "Unterminated string starting at"
  | .invalidEscape => "Invalid \\escape"
  | .invalidUnitEscape => "Invalid \\uXXXX escape"

/-- The place in `t` before its last part `rest`. -/
def Place.before (t rest : Text) : Place :=
  let seen := t.take (t.length - rest.length)
  let lastLine := seen.reverse.takeWhile fun c => c != lineFeed
  ⟨seen.length, seen.count lineFeed + 1, lastLine.length + 1⟩

def Failure.toError (t : Text) : Failure → Error
  | .malformed complaint rest => .malformed complaint (Place.before t rest)
  | .tooManyDigits count => .tooManyDigits count

/-! ### blanks and words -/

def isSpace (c : CodePoint) : Bool :=
  c == space || c == tab || c == lineFeed || c == carriageReturn

def skipSpace (t : Text) : Text := t.dropWhile isSpace

/-- What follows a word at the front of a text. -/
def after? (word t : Text) : Option Text :=
  if word.isPrefixOf t then some (t.drop word.length) else none

/-! ### strings -/

/-- A code point of a string, and whether a unit escape spelled it. -/
structure Piece where
  codePoint : CodePoint
  escaped : Bool
deriving DecidableEq, Repr

/-- Joins each high surrogate with a low one after it, both spelled by unit escapes. -/
def joinPieces : List Piece → Text
  | [] => []
  | [p] => [p.codePoint]
  | p :: q :: rest =>
    if p.escaped && q.escaped && p.codePoint.isHighSurrogate && q.codePoint.isLowSurrogate then
      joinUnits p.codePoint q.codePoint :: joinPieces rest
    else p.codePoint :: joinPieces (q :: rest)

def unescape? (letter : CodePoint) : Option CodePoint :=
  if letter = quotationMark then some quotationMark
  else if letter = backslash then some backslash
  else if letter = solidus then some solidus
  else if letter = CodePoint.ofChar 'n' then some lineFeed
  else if letter = CodePoint.ofChar 'r' then some carriageReturn
  else if letter = CodePoint.ofChar 't' then some tab
  else if letter = CodePoint.ofChar 'f' then some formFeed
  else if letter = CodePoint.ofChar 'b' then some backspace
  else none

/-- The code point of four hexadecimal digits. -/
def unit? (a b c d : CodePoint) : Option CodePoint := do
  let a ← hexValue? a
  let b ← hexValue? b
  let c ← hexValue? c
  let d ← hexValue? d
  let n := ((a * 16 + b) * 16 + c) * 16 + d
  if h : n < 0x110000 then some ⟨n, h⟩ else none

/-- A unit escape counts only if something follows it. -/
def readPieces (opening : Text) : Text → Except Failure (List Piece × Text)
  | [] => .error (.malformed .unterminatedString opening)
  | c :: rest =>
    if c = quotationMark then .ok ([], rest)
    else if c.val ≤ 0x1f then .error (.malformed .controlInString (c :: rest))
    else if c = backslash then
      match rest with
      | [] => .error (.malformed .unterminatedString opening)
      | letter :: rest' =>
        if letter = CodePoint.ofChar 'u' then
          match rest' with
          | d₁ :: d₂ :: d₃ :: d₄ :: next :: tail =>
            match unit? d₁ d₂ d₃ d₄ with
            | none => .error (.malformed .invalidUnitEscape (letter :: rest'))
            | some u => (readPieces opening (next :: tail)).map fun (ps, r) => (⟨u, true⟩ :: ps, r)
          | _ => .error (.malformed .invalidUnitEscape (letter :: rest'))
        else
          match unescape? letter with
          | none => .error (.malformed .invalidEscape (c :: rest))
          | some u => (readPieces opening rest').map fun (ps, r) => (⟨u, false⟩ :: ps, r)
    else (readPieces opening rest).map fun (ps, r) => (⟨c, false⟩ :: ps, r)

/-- The string after its opening quotation mark, and what follows its closing one. -/
def readString (t : Text) : Except Failure (Text × Text) :=
  (readPieces (quotationMark :: t) t).map fun (ps, r) => (joinPieces ps, r)

/-! ### numbers -/

/-- The parts of a number as they are written. -/
structure Numeral where
  negative : Bool
  whole : Text
  fraction : Text
  exponent : Option Int

def digitsOf (t : Text) : Text × Text := (t.takeWhile isDigit, t.dropWhile isDigit)

/-- Digits without a zero before others. -/
def readWhole? : Text → Option (Text × Text)
  | [] => none
  | c :: rest =>
    if c = zero then some ([c], rest)
    else if isDigit c then some (digitsOf (c :: rest))
    else none

/-- A point with digits after it; without digits the point is not part of the number. -/
def readFraction : Text → Text × Text
  | [] => ([], [])
  | c :: rest =>
    if c = point ∧ (digitsOf rest).1 ≠ [] then digitsOf rest else ([], c :: rest)

def readSign : Text → Bool × Text
  | [] => (false, [])
  | c :: rest =>
    if c = hyphen then (true, rest)
    else if c = plus then (false, rest)
    else (false, c :: rest)

def readExponent : Text → Option Int × Text
  | [] => (none, [])
  | c :: rest =>
    if c = CodePoint.ofChar 'e' ∨ c = CodePoint.ofChar 'E' then
      let (negative, rest') := readSign rest
      let (ds, r) := digitsOf rest'
      if ds = [] then (none, c :: rest)
      else
        let n : Int := Number.digitsValue ds
        (some (if negative then -n else n), r)
    else (none, c :: rest)

def readNumeral? (t : Text) : Option (Numeral × Text) :=
  let (negative, t) := match t with
    | [] => (false, [])
    | c :: rest => if c = hyphen then (true, rest) else (false, c :: rest)
  match readWhole? t with
  | none => none
  | some (whole, t) =>
    let (fraction, t) := readFraction t
    let (exponent, t) := readExponent t
    some (⟨negative, whole, fraction, exponent⟩, t)

/-- Without a fraction and an exponent a number is an integer, of limited length. -/
def Numeral.value (n : Numeral) : Except Failure Json :=
  if n.fraction = [] ∧ n.exponent = none then
    if Number.digitLimit < n.whole.length then .error (.tooManyDigits n.whole.length)
    else
      let value : Int := Number.digitsValue n.whole
      .ok (.int (if n.negative then -value else value))
  else
    .ok (.float (Double.ofDecimal n.negative (Number.digitsValue (n.whole ++ n.fraction))
      (n.exponent.getD 0 - n.fraction.length)))

/-- The words that stand for values, and their values. -/
def words : List (Text × Json) := [
  ("null", .null), ("true", .bool true), ("false", .bool false), ("NaN", .float .notANumber),
  ("Infinity", .float (.infinity false)), ("-Infinity", .float (.infinity true))]

def readWord? (t : Text) : Option (Json × Text) :=
  words.findSome? fun (word, value) => (after? word t).map fun rest => (value, rest)

/-- A value that is neither a string nor holds others. -/
def readScalar (t : Text) : Except Failure (Json × Text) :=
  match readWord? t with
  | some r => .ok r
  | none =>
    match readNumeral? t with
    | some (n, rest) => n.value.map fun v => (v, rest)
    | none => .error (.malformed .expectingValue t)

/-! ### values -/

/-- The name of a member and the colon after it, with the blanks around the colon. -/
def readName : Text → Except Failure (Text × Text)
  | [] => .error (.malformed .expectingName [])
  | c :: rest =>
    if c = quotationMark then do
      let (name, rest) ← readString rest
      match skipSpace rest with
      | [] => .error (.malformed .expectingColon [])
      | c :: rest =>
        if c = colon then .ok (name, skipSpace rest)
        else .error (.malformed .expectingColon (c :: rest))
    else .error (.malformed .expectingName (c :: rest))

mutual

/-- The value at the front of a text; `fuel` bounds the depth and the number of the items. -/
def readValue : Nat → Text → Except Failure (Json × Text)
  | 0, t => .error (.malformed .expectingValue t)
  | _ + 1, [] => .error (.malformed .expectingValue [])
  | fuel + 1, c :: rest =>
    if c = quotationMark then (readString rest).map fun (t, r) => (.str t, r)
    else if c = openBracket then
      match skipSpace rest with
      | [] => .error (.malformed .expectingValue [])
      | d :: rest =>
        if d = closeBracket then .ok (.arr [], rest)
        else (readItems fuel (d :: rest)).map fun (items, r) => (.arr items, r)
    else if c = openBrace then
      match skipSpace rest with
      | [] => .error (.malformed .expectingName [])
      | d :: rest =>
        if d = closeBrace then .ok (.obj [], rest)
        else (readMembers fuel (d :: rest)).map fun (ms, r) => (.obj (Fields.collapse ms), r)
    else readScalar (c :: rest)

/-- Items up to the closing bracket. -/
def readItems : Nat → Text → Except Failure (List Json × Text)
  | 0, t => .error (.malformed .expectingValue t)
  | fuel + 1, t => do
    let (item, rest) ← readValue fuel t
    match skipSpace rest with
    | [] => .error (.malformed .expectingComma [])
    | c :: rest =>
      if c = closeBracket then .ok ([item], rest)
      else if c = comma then do
        let (items, rest) ← readItems fuel (skipSpace rest)
        .ok (item :: items, rest)
      else .error (.malformed .expectingComma (c :: rest))

/-- Members up to the closing brace. -/
def readMembers : Nat → Text → Except Failure (List (Text × Json) × Text)
  | 0, t => .error (.malformed .expectingName t)
  | fuel + 1, t => do
    let (name, rest) ← readName t
    let (value, rest) ← readValue fuel rest
    match skipSpace rest with
    | [] => .error (.malformed .expectingComma [])
    | c :: rest =>
      if c = closeBrace then .ok ([(name, value)], rest)
      else if c = comma then do
        let (members, rest) ← readMembers fuel (skipSpace rest)
        .ok ((name, value) :: members, rest)
      else .error (.malformed .expectingComma (c :: rest))

end

/-- Each value takes up a code point, and one more step leads to it where it stands in a list. -/
def fuelFor (t : Text) : Nat := 2 * t.length + 2

/-- A value with blanks around it. -/
def readDocument (t : Text) : Except Failure Json :=
  if t.head? = some byteOrderMark then .error (.malformed .byteOrderMark t)
  else do
    let (value, rest) ← readValue (fuelFor t) (skipSpace t)
    match skipSpace rest with
    | [] => .ok value
    | rest => .error (.malformed .extraData rest)

def ofText (t : Text) : Except Error Json := (readDocument t).mapError (Failure.toError t)

/-! ### messages -/

def Error.message : Error → Text
  | .malformed complaint place =>
    complaint.message ++ (": line " : Text) ++ Number.naturalText place.line
      ++ (" column " : Text) ++ Number.naturalText place.column
      ++ (" (char " : Text) ++ Number.naturalText place.offset ++ (")" : Text)
  | .tooManyDigits count =>
    ("Exceeds the limit (4300 digits) for integer string conversion: value has " : Text)
      ++ Number.naturalText count
      ++ (" digits; use sys.set_int_max_str_digits() to increase the limit" : Text)

end SelectorForge.Json
