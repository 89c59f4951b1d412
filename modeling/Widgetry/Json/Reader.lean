import Widgetry.Number.Reading
import Widgetry.Text.Utf8
import Widgetry.Value.Equality

/-!
# Reading JSON

Reads a document whose outermost value is an object. Only what the grammar allows is read: no zeros
in front of a number, no commas at the end, no halves of surrogate pairs. Of several entries of one
name the last value counts.

Texts are decoded when they end, so that of two faults the first one is told. The position in a
fault of the encoding counts the bytes of the text, with its escapes resolved.
-/

namespace Widgetry.Json

inductive ReadFault where
  | invalid
  | encoding (e : Text.DecodeFault)
  | notObject (type : String)
  | tooDeep (depth limit : Int)
deriving DecidableEq, Repr

/-- What is wrong, unless the document is no JSON at all. -/
def ReadFault.message? : ReadFault → Option String
  | invalid => none
  | encoding e => some e.message
  | notObject type => some ("Expected object, got " ++ type)
  | tooDeep depth limit =>
    some ("JSON nesting depth " ++ toString depth ++ " exceeds maximum " ++ toString limit)

abbrev Bytes := List UInt8

def isBlank (b : UInt8) : Bool := b == 0x20 || b == 0x09 || b == 0x0a || b == 0x0d

def skipBlanks (bytes : Bytes) : Bytes := bytes.dropWhile isBlank

/-! ## Numbers -/

/-- What follows the digits in front of the point; a zero stands alone. -/
def afterWhole? : List Char → Option (List Char)
  | '0' :: rest => some rest
  | c :: rest => if c.isDigit then some (rest.dropWhile Char.isDigit) else none
  | [] => none

/-- What follows the point and the digits behind it, if there is a point. -/
def afterPlaces? : List Char → Option (List Char)
  | '.' :: rest =>
    match rest with
    | c :: _ => if c.isDigit then some (rest.dropWhile Char.isDigit) else none
    | [] => none
  | cs => some cs

/-- Whether characters are an exponent, or nothing. -/
def isExponent : List Char → Bool
  | [] => true
  | c :: rest => (c == 'e' || c == 'E') && (Decimal.signedValue rest).isSome

def isNumber (text : List Char) : Bool :=
  let unsigned := match text with
    | '-' :: rest => rest
    | _ => text
  match (afterWhole? unsigned).bind afterPlaces? with
  | some rest => isExponent rest
  | none => false

/-- The value of a number. Whole numbers have no bound but that on their text; all others must lie
in the range of floating-point numbers. -/
def numberValue? (text : List Char) : Option Value :=
  if !isNumber text then none
  else if text.all fun c => c.isDigit || c == '-' then
    if Decimal.digitLimit < text.length then none
    else (Decimal.signedValue text).map .int
  else do
    let x := (← Decimal.notation? text).value
    if Binary64.isFinite x then some (.float x) else none

def isNumberByte (b : UInt8) : Bool :=
  "+-.0123456789eE".toList.contains (Char.ofNat b.toNat)

def readNumber (bytes : Bytes) : Except ReadFault (Value × Bytes) :=
  let text := (bytes.takeWhile isNumberByte).map fun b => Char.ofNat b.toNat
  match numberValue? text with
  | some v => .ok (v, bytes.dropWhile isNumberByte)
  | none => .error .invalid

/-! ## Texts -/

def hexValue? (b : UInt8) : Option Nat :=
  let n := b.toNat
  if 0x30 ≤ n ∧ n ≤ 0x39 then some (n - 0x30)
  else if 0x41 ≤ n ∧ n ≤ 0x46 then some (n - 0x37)
  else if 0x61 ≤ n ∧ n ≤ 0x66 then some (n - 0x57)
  else none

/-- The number of sixteen bits at the front. -/
def readUnit : Bytes → Except ReadFault (Nat × Bytes)
  | a :: b :: c :: d :: rest =>
    match [a, b, c, d].mapM hexValue? with
    | some ds => .ok (ds.foldl (fun n d => 16 * n + d) 0, rest)
    | none => .error .invalid
  | _ => .error .invalid

/-- The character that an escape in hexadecimal digits denotes. A character beyond sixteen bits takes
two of them. -/
def readHexEscape (bytes : Bytes) : Except ReadFault (Char × Bytes) := do
  let (high, rest) ← readUnit bytes
  if high < 0xd800 ∨ 0xe000 ≤ high then return (Char.ofNat high, rest)
  if 0xdc00 ≤ high then throw .invalid
  match rest with
  | 0x5c :: 0x75 :: rest =>
    let (low, rest) ← readUnit rest
    if low < 0xdc00 ∨ 0xe000 ≤ low then throw .invalid
    return (Char.ofNat (0x10000 + (high - 0xd800) * 0x400 + (low - 0xdc00)), rest)
  | _ => throw .invalid

/-- The character that a short escape denotes. -/
def shortEscaped? (b : UInt8) : Option UInt8 :=
  [(0x22, 0x22), (0x5c, 0x5c), (0x2f, 0x2f), (0x62, 0x08), (0x66, 0x0c), (0x6e, 0x0a), (0x72, 0x0d),
    (0x74, 0x09)].lookup b

/-- The bytes of a text up to its closing quote, the last one first. There are no more steps than
bytes. -/
def textBytes : Nat → Bytes → Bytes → Except ReadFault (Bytes × Bytes)
  | 0, _, _ => .error .invalid
  | _, _, [] => .error .invalid
  | n + 1, read, b :: rest =>
    if b = 0x22 then .ok (read, rest)
    else if b = 0x5c then
      match rest with
      | 0x75 :: rest => do
        let (c, rest) ← readHexEscape rest
        textBytes n ((Text.encode c.toString).reverse ++ read) rest
      | e :: rest =>
        match shortEscaped? e with
        | some b => textBytes n (b :: read) rest
        | none => .error .invalid
      | [] => .error .invalid
    else if b < 0x20 then .error .invalid
    else textBytes n (b :: read) rest

/-- The text behind an opening quote. -/
def readText (bytes : Bytes) : Except ReadFault (String × Bytes) := do
  let (reversed, rest) ← textBytes bytes.length [] bytes
  let s ← (Text.decode reversed.reverse).mapError .encoding
  return (s, rest)

/-! ## Values -/

/-- What follows a word. -/
def afterWord (word : String) (bytes : Bytes) : Except ReadFault Bytes :=
  if (Text.encode word).isPrefixOf bytes then .ok (bytes.drop word.utf8ByteSize)
  else .error .invalid

mutual

/-- The value at the front. Every step reads at least a byte or goes one level down, so there are no
more than twice as many steps as bytes. -/
def readValue : Nat → Bytes → Except ReadFault (Value × Bytes)
  | 0, _ => .error .invalid
  | n + 1, bytes =>
    match skipBlanks bytes with
    | [] => .error .invalid
    | b :: rest =>
      if b = 0x22 then do
        let (s, rest) ← readText rest
        return (.str s, rest)
      else if b = 0x5b then
        match skipBlanks rest with
        | 0x5d :: rest => .ok (.list [], rest)
        | rest => readItems n [] rest
      else if b = 0x7b then
        match skipBlanks rest with
        | 0x7d :: rest => .ok (.object [], rest)
        | rest => readEntries n [] rest
      else if b = 0x74 then do
        let rest ← afterWord "rue" rest
        return (.bool true, rest)
      else if b = 0x66 then do
        let rest ← afterWord "alse" rest
        return (.bool false, rest)
      else if b = 0x6e then do
        let rest ← afterWord "ull" rest
        return (.nil, rest)
      else readNumber (b :: rest)

/-- The items of a list up to its closing bracket; `read` are those before, the last one first. -/
def readItems : Nat → List Value → Bytes → Except ReadFault (Value × Bytes)
  | 0, _, _ => .error .invalid
  | n + 1, read, bytes => do
    let (v, rest) ← readValue n bytes
    match skipBlanks rest with
    | 0x2c :: rest => readItems n (v :: read) rest
    | 0x5d :: rest => return (.list (v :: read).reverse, rest)
    | _ => throw .invalid

/-- The entries of an object up to its closing brace; `read` are those before. -/
def readEntries : Nat → List (Key × Value) → Bytes → Except ReadFault (Value × Bytes)
  | 0, _, _ => .error .invalid
  | n + 1, read, bytes =>
    match skipBlanks bytes with
    | 0x22 :: rest => do
      let (name, rest) ← readText rest
      match skipBlanks rest with
      | 0x3a :: rest =>
        let (v, rest) ← readValue n rest
        let read := Entries.put (.str name) v read
        match skipBlanks rest with
        | 0x2c :: rest => readEntries n read rest
        | 0x7d :: rest => return (.object read, rest)
        | _ => throw .invalid
      | _ => throw .invalid
    | _ => .error .invalid

end

/-- The value that a whole document denotes. -/
def read (bytes : Bytes) : Except ReadFault Value := do
  let (v, rest) ← readValue (2 * bytes.length + 1) bytes
  if (skipBlanks rest).isEmpty then return v else throw .invalid

/-! ## Nesting -/

mutual

/-- How many lists and objects there are around the innermost value. -/
def nesting : Value → Nat
  | .list items => nestingItems items
  | .object entries => nestingEntries entries
  | _ => 0

def nestingItems : List Value → Nat
  | [] => 0
  | v :: rest => max (nesting v + 1) (nestingItems rest)

def nestingEntries : List (Key × Value) → Nat
  | [] => 0
  | (_, v) :: rest => max (nesting v + 1) (nestingEntries rest)

end

/-- Refuses values that are nested deeper than a limit; the fault tells the first depth beyond. -/
def checkNesting (limit : Int) (v : Value) : Except ReadFault Unit :=
  if limit < nesting v then .error (.tooDeep (max 0 (limit + 1)) limit) else .ok ()

/-- What the type of a value is called in faults. -/
def typeName : Value → String
  | .nil => "NoneType"
  | .list _ => "list"
  | .object _ => "dict"
  | v => v.typeName

/-- The object that a document denotes, if it is not nested deeper than a limit. -/
def readObject (bytes : Bytes) (limit : Int) : Except ReadFault Value := do
  let v ← read bytes
  match v with
  | .object _ =>
    checkNesting limit v
    return v
  | _ => throw (.notObject (typeName v))

end Widgetry.Json
