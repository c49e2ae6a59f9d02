import SearchFilter.Json.Basic
import SearchFilter.Text.Reading

/-! # Reading JSON

`Json.read` takes a whole text as one JSON value.  Blanks are the space, the tab, the line feed
and the carriage return only.  Of members with the same key the last one counts.  Arrays and
objects may be nested inside each other up to a limit. -/

namespace SearchFilter.Json

open Reading

/-- The greatest number of arrays and objects that may be nested inside each other. -/
def maxDepth : Nat := 127

def blanks : Reading Unit := discard (run fun c => c == ' ' || c == '\t' || c == '\n' || c == '\r')

/-- A punctuation mark and the blanks behind it. -/
def mark (c : Char) : Reading Unit := exact [c] *> blanks

/-! ### Strings -/

/-- The number that four hexadecimal digits stand for. -/
def codeUnit : Reading Nat := Text.value 16 <$> exactly isHexDigit 4

/-- The character that one `\uXXXX` stands for, or two of them that form a surrogate pair.  The
first `\u` has been read. -/
def unicodeEscape : Reading Char := do
  let high ← codeUnit
  match charOfCode? high with
  | some c => pure c
  | none =>
    if 0xdc00 ≤ high then failure
    exact "\\u"
    let low ← codeUnit
    if low < 0xdc00 ∨ 0xdfff < low then failure
    (charOfCode? (0x10000 + 0x400 * (high - 0xd800) + (low - 0xdc00)) : Option Char)

/-- One character of a string, which may be escaped. -/
def stringCharacter : Reading Char := do
  let c ← one fun c => c != '"' && 0x20 ≤ c.toNat
  if c ≠ '\\' then pure c
  else
    match ← one fun _ => true with
    | '"' => pure '"'
    | '\\' => pure '\\'
    | '/' => pure '/'
    | 'b' => pure '\x08'
    | 'f' => pure '\x0c'
    | 'n' => pure '\n'
    | 'r' => pure '\r'
    | 't' => pure '\t'
    | 'u' => unicodeEscape
    | _ => failure

def quoted : Reading Text := exact ['"'] *> many stringCharacter <* exact ['"']

/-! ### Values -/

/-- A number: nothing that may stand behind a number could be taken for a part of it. -/
def numeral : Reading Json := do
  let text ← run fun c => c.isDigit || c == '-' || c == '+' || c == '.' || c == 'e' || c == 'E'
  number <$> ((numeral? text).bind Numeral.value? : Option Number)

def scalar : Reading Json := do
  match ← ahead with
  | some 'n' => exact "null" *> pure null
  | some 't' => exact "true" *> pure (boolean true)
  | some 'f' => exact "false" *> pure (boolean false)
  | some '"' => string <$> quoted
  | _ => numeral

/-- A member of an object, with the blanks behind it. -/
def member (value : Reading Json) : Reading (Text × Json) := do
  let key ← quoted <* blanks
  mark ':'
  return (key, ← value <* blanks)

/-- A value with at most so many arrays and objects nested inside each other. -/
def value : Nat → Reading Json
  | 0 => scalar
  | depth + 1 => do
    match ← ahead with
    | some '[' =>
      mark '['
      let items ← separated (mark ',') (value depth <* blanks)
      exact [']']
      return array items
    | some '\x7b' =>
      mark '\x7b'
      let members ← separated (mark ',') (member (value depth))
      exact ['\x7d']
      return ofMembers members
    | _ => scalar

/-- The value that a text stands for. -/
def read (text : Text) : Option Json := (blanks *> value maxDepth <* blanks).whole text

end SearchFilter.Json
