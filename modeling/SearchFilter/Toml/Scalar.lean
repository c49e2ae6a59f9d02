import SearchFilter.Text.Basic
import SearchFilter.Text.Reading

/-! # TOML scalars

Strings in their four forms, integers, floating-point numbers, dates and times. -/

namespace SearchFilter.Toml

open Reading

/-! ### Blanks and lines -/

def blanks : Reading Unit := discard (run fun c => c == ' ' || c == '\t')

/-- The end of a line that is not the last one. -/
def newline : Reading Char := (exact ['\n'] <|> exact ['\r', '\n']) *> pure '\n'

/-- May the character stand for itself in a comment or a string?  A tab may, but no other control
character. -/
def isPlain (c : Char) : Bool := c == '\t' || (0x20 ≤ c.toNat && c.toNat ≠ 0x7f)

/-- A comment, up to the end of its line. -/
def comment : Reading Unit := exact ['#'] *> discard (run isPlain)

/-! ### Strings -/

/-- The character with a code of a given number of hexadecimal digits. -/
def codedChar (digits : Nat) : Reading Char := do
  let digits ← exactly isHexDigit digits
  (charOfCode? (Text.value 16 digits) : Option Char)

/-- The character that an escape stands for; the backslash has been read. -/
def escaped : Reading Char := do
  match ← one fun _ => true with
  | '"' => pure '"'
  | '\\' => pure '\\'
  | 'b' => pure '\x08'
  | 'f' => pure '\x0c'
  | 'n' => pure '\n'
  | 'r' => pure '\r'
  | 't' => pure '\t'
  | 'u' => codedChar 4
  | 'U' => codedChar 8
  | _ => failure

def basicChar : Reading Char :=
  one (fun c => isPlain c && c != '"' && c != '\\') <|> exact ['\\'] *> escaped

def literalChar : Reading Char := one fun c => isPlain c && c != '\''

/-- Characters between two quotes of a kind, on one line. -/
def lineString (quote : Char) (char : Reading Char) : Reading Text :=
  exact [quote] *> many char <* exact [quote]

/-- A backslash at the end of a line takes away all blanks and lines up to the next character. -/
def continuation : Reading Text := do
  exact ['\\'] *> blanks *> discard newline
  let _ ← many (one (fun c => c == ' ' || c == '\t') <|> newline)
  return []

/-- A part of a string over several lines.  One quote or two may stand for themselves. -/
def blockPart (quote : Char) (char : Reading Char) : Reading Text :=
  List.singleton <$> (char <|> newline <|> notAhead (.replicate 3 quote) *> one (· == quote))

/-- A string over several lines between three quotes of a kind.  A newline right behind the
opening quotes does not count; two quotes right before the closing ones do. -/
def blockString (quote : Char) (part : Reading Text) : Reading Text := do
  exact (.replicate 3 quote)
  let _ ← optional newline
  let parts ← many part
  exact (.replicate 3 quote)
  let quotes ← upTo 2 (one (· == quote))
  return parts.flatten ++ quotes

def simpleString : Reading Text := lineString '"' basicChar <|> lineString '\'' literalChar

def string : Reading Text :=
  blockString '"' (blockPart '"' basicChar <|> continuation) <|>
    blockString '\'' (blockPart '\'' literalChar) <|> simpleString

/-! ### Numbers -/

/-- Digits, with single underscores between them. -/
def digits (isDigit : Char → Bool) : Reading Text := do
  let first ← one isDigit
  return first :: (← many (optional (exact ['_']) *> one isDigit))

/-- Decimal digits that do not start with a zero, or a zero alone. -/
def wholeDigits : Reading Text := do
  match ← ahead with
  | some '0' => exact ['0'] *> pure ['0']
  | _ => digits Char.isDigit

/-- A sign, if any: is it a minus? -/
def sign : Reading Bool := (exact ['-'] *> pure true) <|> (optional (exact ['+']) *> pure false)

/-- An integer without a sign, in a base that its first characters tell. -/
def basedInteger (mark : Text) (base : Nat) : Reading Int := do
  exact mark
  let digits ← digits fun c => isHexDigit c && digitValue c < base
  return Text.value base digits

def decimalInteger : Reading Int := do
  let negative ← sign
  let size : Int := Text.value 10 (← wholeDigits)
  return if negative then -size else size

/-- An integer, which must fit 64 bits. -/
def integer : Reading Int := do
  let value ← basedInteger "0x" 16 <|> basedInteger "0o" 8 <|> basedInteger "0b" 2 <|>
    decimalInteger
  let limit : Int := Nat.pow 2 63
  if -limit ≤ value ∧ value < limit then pure value else failure

/-- Does `digits * 10 ^ exponent` lie beyond all floating-point numbers?  They end half a step
above the greatest one. -/
def isOverflow (digits : Text) (exponent : Int) : Bool :=
  let limit := Nat.pow 2 1024 - Nat.pow 2 970
  let size := Text.value 10 digits
  if exponent < 0 then
    exponent.natAbs < digits.length && limit * Nat.pow 10 exponent.natAbs ≤ size
  else size ≠ 0 && (308 < exponent || limit ≤ size * Nat.pow 10 exponent.toNat)

def exponent : Reading Int := do
  let _ ← one fun c => c == 'e' || c == 'E'
  let negative ← sign
  let size : Int := Text.value 10 (← digits Char.isDigit)
  return if negative then -size else size

/-- A floating-point number: one with a fraction or an exponent, or a special value.  Overflow is
an error above, but not below. -/
def float : Reading Unit := do
  let negative ← sign
  exact "inf" <|> exact "nan" <|> do
    let whole ← wholeDigits
    let fraction ← optional (exact ['.'] *> digits Char.isDigit)
    let power ← if fraction.isSome then (·.getD 0) <$> optional exponent else exponent
    let fraction := fraction.getD []
    if !negative && isOverflow (whole ++ fraction) (power - fraction.length) then failure

/-! ### Dates and times -/

/-- A number of two digits between two bounds. -/
def twoDigits (least greatest : Nat) : Reading Nat := do
  let n := Text.value 10 (← exactly Char.isDigit 2)
  if least ≤ n ∧ n ≤ greatest then pure n else failure

/-- The number of days in a month. -/
def daysIn (year month : Nat) : Nat :=
  if month = 2 then
    if year % 4 = 0 ∧ (year % 100 ≠ 0 ∨ year % 400 = 0) then 29 else 28
  else if month = 4 ∨ month = 6 ∨ month = 9 ∨ month = 11 then 30
  else 31

def date : Reading Unit := do
  let year := Text.value 10 (← exactly Char.isDigit 4)
  exact ['-']
  let month ← twoDigits 1 12
  exact ['-']
  discard (twoDigits 1 (daysIn year month))

def clock : Reading Unit := twoDigits 0 23 *> exact [':'] *> discard (twoDigits 0 59)

/-- A time of day; a minute may have a leap second. -/
def time : Reading Unit := do
  clock
  exact [':']
  let _ ← twoDigits 0 60
  discard (optional (exact ['.'] *> someRun Char.isDigit))

/-- The distance from universal time. -/
def offset : Reading Unit :=
  discard (one fun c => c == 'Z' || c == 'z') <|> one (fun c => c == '+' || c == '-') *> clock

/-- A date, a time, or both, with or without an offset. -/
def dateTime : Reading Unit :=
  date *> discard (optional
    (one (fun c => c == 'T' || c == 't' || c == ' ') *> time *> optional offset)) <|> time

end SearchFilter.Toml
