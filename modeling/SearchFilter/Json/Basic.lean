import SearchFilter.Decimal.Shortest

/-! # JSON values

The members of an object are kept in ascending order of their keys, character by character, and
no key occurs twice.  `Json.compact` writes a value without any blanks, `Json.pretty` with one
item or member to a line and two blanks of indentation per level. -/

namespace SearchFilter

/-- A JSON number: an integer is exact, any other number is binary floating point. -/
inductive Json.Number where
  | integer (value : Int)
  | real (value : Float)

inductive Json where
  | null
  | boolean (value : Bool)
  | number (value : Json.Number)
  | string (value : Text)
  | array (items : List Json)
  | object (members : List (Text × Json))

namespace Json

/-- The members with one more: a key that is there already gets the new value. -/
def insertMember (key : Text) (value : Json) : List (Text × Json) → List (Text × Json)
  | [] => [(key, value)]
  | (k, v) :: rest =>
    if key = k then (key, value) :: rest
    else if key < k then (key, value) :: (k, v) :: rest
    else (k, v) :: insertMember key value rest

/-- The object with the given members, in any order. -/
def ofMembers (members : List (Text × Json)) : Json :=
  object (members.foldl (fun sorted (key, value) => insertMember key value sorted) [])

/-! ### Numerals

A numeral without fraction and exponent whose value fits 64 bits is an integer and stays exact.
Any other is turned into a floating-point number in the plain way: as many leading digits as fit
an unsigned 64-bit number are kept, the rest only count towards the power of ten, and the kept
digits are multiplied or divided by that power.  A result that is too great is refused.

A floating-point number is written with its shortest decimal: positionally if the exponent of the
leading digit lies between -5 and 15, with an exponent otherwise. -/

/-- The parts of a numeral; the digits are characters. -/
structure Numeral where
  negative : Bool
  whole : Text
  fraction : Text
  exponent : Int
  /-- There is neither a point nor an exponent. -/
  isWhole : Bool

/-- The exponent of a numeral: the mark, a sign and at least one digit, or nothing at all. -/
def exponent? : Text → Option Int
  | [] => some 0
  | mark :: rest =>
    if mark ≠ 'e' ∧ mark ≠ 'E' then none
    else
      let (negative, digits) := match rest with
        | '-' :: digits => (true, digits)
        | '+' :: digits => (false, digits)
        | digits => (false, digits)
      if digits.isEmpty || !digits.all Char.isDigit then none
      else
        let size : Int := Text.value 10 digits
        some (if negative then -size else size)

/-- The parts of a text that is a numeral: no zero in front of other digits, and digits on both
sides of a point. -/
def numeral? (text : Text) : Option Numeral :=
  let (negative, text) := match text with
    | '-' :: rest => (true, rest)
    | text => (false, text)
  let whole := text.takeWhile Char.isDigit
  let rest := text.dropWhile Char.isDigit
  if whole.isEmpty || (whole.head? == some '0' && whole.length != 1) then none
  else
    match rest with
    | [] => some ⟨negative, whole, [], 0, true⟩
    | '.' :: rest =>
      let fraction := rest.takeWhile Char.isDigit
      if fraction.isEmpty then none
      else (exponent? (rest.dropWhile Char.isDigit)).map (⟨negative, whole, fraction, ·, false⟩)
    | rest => (exponent? rest).map (⟨negative, whole, [], ·, false⟩)

/-! ### Values -/

/-- The digits that can follow `start` without leaving 64 bits: the number they make with it, and
how many digits are left over. -/
def keepDigits (start : Nat) : Text → Nat × Nat
  | [] => (start, 0)
  | c :: digits =>
    let next := 10 * start + digitValue c
    if next < Nat.pow 2 64 then keepDigits next digits else (start, digits.length + 1)

def powerOfTen (power : Nat) : Float := Float.ofScientific 1 false power

/-- A number divided by `10 ^ 308` as many times as given, but not any more once it is zero. -/
def divideRepeatedly (x : Float) : Nat → Float
  | 0 => x
  | times + 1 => if x == 0 then x else divideRepeatedly (x / powerOfTen 308) times

/-- A number divided by a power of ten, in steps of at most `10 ^ 308`. -/
def divideByPower (x : Float) (power : Nat) : Float :=
  let steps := (power - 1) / 308
  divideRepeatedly x steps / powerOfTen (power - 308 * steps)

/-- A number times a power of ten, unless it leaves the range. -/
def scale? (x : Float) (power : Int) : Option Float :=
  if power < 0 then some (divideByPower x power.natAbs)
  else if power ≤ 308 then
    let product := x * powerOfTen power.toNat
    if product.isInf then none else some product
  else if x == 0 then some x
  else none

def Numeral.value? (numeral : Numeral) : Option Number :=
  let (whole, dropped) := keepDigits 0 numeral.whole
  if numeral.isWhole && dropped == 0 && !numeral.negative then some (.integer whole)
  else if numeral.isWhole && dropped == 0 && 0 < whole && whole ≤ Nat.pow 2 63 then
    some (.integer (-(whole : Int)))
  else
    let (significand, unused) := keepDigits whole numeral.fraction
    let kept := numeral.fraction.length - unused
    let power := (dropped : Int) - kept + numeral.exponent
    (scale? (UInt64.ofNat significand).toFloat power).map fun x =>
      .real (if numeral.negative then -x else x)

/-! ### The written form of a numeral -/

/-- A decimal as it is written: always with a point or an exponent, the exponent always with its
sign. -/
def decimalText (decimal : Decimal) : Text :=
  let digits := Text.ofNat decimal.digits
  let leading := decimal.exponent + digits.length - 1
  if leading < -5 ∨ 15 < leading then
    let tail := if digits.length = 1 then [] else '.' :: digits.tail
    digits.take 1 ++ tail ++ 'e' :: (if leading < 0 then '-' else '+') ::
      Text.ofNat leading.natAbs
  else if 0 ≤ decimal.exponent then
    digits ++ List.replicate decimal.exponent.toNat '0' ++ ".0"
  else if 0 ≤ leading then
    let place := leading.toNat + 1
    digits.take place ++ '.' :: digits.drop place
  else "0." ++ List.replicate (leading.natAbs - 1) '0' ++ digits

/-- A finite floating-point number as it is written. -/
def floatText (x : Float) : Text :=
  let size : Text := if x == 0 then "0.0" else decimalText (BinaryNumber.ofFloat x).shortest
  if x.toBits >>> 63 == 1 then '-' :: size else size

def Number.text : Number → Text
  | .integer value => if value < 0 then '-' :: Text.ofNat value.natAbs else Text.ofNat value.natAbs
  | .real value => floatText value

/-! ### Writing -/

/-- The last two hexadecimal digits of a character's code. -/
def hexPair (c : Char) : Text := [Nat.digitChar (c.toNat / 16 % 16), Nat.digitChar (c.toNat % 16)]

/-- One character inside a string.  Only the quote, the backslash and the control characters
below U+0020 cannot stand for themselves. -/
def stringChar (c : Char) : Text :=
  if c = '"' then "\\\""
  else if c = '\\' then "\\\\"
  else if c = '\x08' then "\\b"
  else if c = '\t' then "\\t"
  else if c = '\n' then "\\n"
  else if c = '\x0c' then "\\f"
  else if c = '\r' then "\\r"
  else if c.toNat < 0x20 then "\\u00" ++ hexPair c
  else [c]

def stringText (t : Text) : Text := '"' :: t.flatMap stringChar ++ ['"']

def booleanText (value : Bool) : Text := if value then "true" else "false"

mutual

/-- The value without blanks. -/
def compact : Json → Text
  | null => "null"
  | boolean value => booleanText value
  | number value => value.text
  | string value => stringText value
  | array items => '[' :: Text.join [','] (compactItems items) ++ [']']
  | object members => '\x7b' :: Text.join [','] (compactMembers members) ++ ['\x7d']

def compactItems : List Json → List Text
  | [] => []
  | item :: items => item.compact :: compactItems items

def compactMembers : List (Text × Json) → List Text
  | [] => []
  | (key, value) :: members => (stringText key ++ ':' :: value.compact) :: compactMembers members

end

def newline (level : Nat) : Text := '\n' :: List.replicate (2 * level) ' '

/-- Parts between brackets, each on a line of its own. -/
def block (level : Nat) (left right : Char) (parts : List Text) : Text :=
  if parts.isEmpty then [left, right]
  else
    left :: newline (level + 1) ++ Text.join (',' :: newline (level + 1)) parts ++
      newline level ++ [right]

mutual

/-- The value over several lines, at a level of indentation. -/
def prettyAt (level : Nat) : Json → Text
  | null => "null"
  | boolean value => booleanText value
  | number value => value.text
  | string value => stringText value
  | array items => block level '[' ']' (prettyItems (level + 1) items)
  | object members => block level '\x7b' '\x7d' (prettyMembers (level + 1) members)

def prettyItems (level : Nat) : List Json → List Text
  | [] => []
  | item :: items => item.prettyAt level :: prettyItems level items

def prettyMembers (level : Nat) : List (Text × Json) → List Text
  | [] => []
  | (key, value) :: members =>
    (stringText key ++ ": " ++ value.prettyAt level) :: prettyMembers level members

end

/-- The value over several lines. -/
def pretty (value : Json) : Text := value.prettyAt 0

end Json
end SearchFilter
