/-! # Text

Filter strings, attribute descriptions, values and everything the program writes are texts, that
is lists of characters.  A text is taken apart by the list functions (`takeWhile`, `dropWhile`,
`flatMap`), so that a fact about a text is a fact about a list. -/

namespace SearchFilter

/-- A text is a list of characters. -/
abbrev Text := List Char

/-- A string literal stands for the list of its characters. -/
instance : Coe String Text := ⟨String.toList⟩

namespace Text

/-- The decimal digits of a natural number. -/
def ofNat (n : Nat) : Text := Nat.toDigits 10 n

/-- The number of bytes of the text in UTF-8. -/
def byteSize (t : Text) : Nat := t.foldr (fun c size => c.utf8Size + size) 0

/-- The texts one after the other, with `separator` between neighbours. -/
def join (separator : Text) (parts : List Text) : Text := separator.intercalate parts

@[simp] theorem join_singleton (separator part : Text) : join separator [part] = part :=
  List.intercalate_singleton

theorem join_cons_cons (separator : Char) (part next : Text) (parts : List Text) :
    join [separator] (part :: next :: parts) =
      part ++ separator :: join [separator] (next :: parts) := by
  simp [join]

/-- The texts between the occurrences of a character. -/
def split (separator : Char) : Text → List Text
  | [] => [[]]
  | c :: rest =>
    if c = separator then [] :: split separator rest
    else
      match split separator rest with
      | [] => [[c]]
      | part :: parts => (c :: part) :: parts

/-- The text without the given first characters, if it starts with them. -/
def after? (start : Text) (t : Text) : Option Text :=
  if start.isPrefixOf t then some (t.drop start.length) else none

end Text

/-! ### Blank characters

A character is blank when it has the Unicode property White_Space: 25 characters in ten ranges,
the same in every version of the standard since 6.3.  Characters that merely look empty, such as
U+200B or U+FEFF, are not blank, and neither are U+001C to U+001F. -/

/-- The code points with the property White_Space, as closed ranges in ascending order. -/
def blankRanges : List (Nat × Nat) :=
  [(0x09, 0x0D), (0x20, 0x20), (0x85, 0x85), (0xA0, 0xA0), (0x1680, 0x1680), (0x2000, 0x200A),
   (0x2028, 0x2029), (0x202F, 0x202F), (0x205F, 0x205F), (0x3000, 0x3000)]

def isBlank (c : Char) : Bool := blankRanges.any fun r => r.1 ≤ c.toNat && c.toNat ≤ r.2

namespace Text

def trimStart (t : Text) : Text := t.dropWhile isBlank

def trimEnd (t : Text) : Text := (t.reverse.dropWhile isBlank).reverse

def trim (t : Text) : Text := t.trimStart.trimEnd

end Text

/-! ### Digits and codes -/

def isHexDigit (c : Char) : Bool :=
  c.isDigit || ('a' ≤ c && c ≤ 'f') || ('A' ≤ c && c ≤ 'F')

/-- The value of a hexadecimal digit, and so of a digit of any smaller base. -/
def digitValue (c : Char) : Nat :=
  if c.isDigit then c.toNat - '0'.toNat
  else if 'a' ≤ c then c.toNat - 'a'.toNat + 10
  else c.toNat - 'A'.toNat + 10

/-- The character of a code, unless it is a surrogate or too great. -/
def charOfCode? (code : Nat) : Option Char :=
  if code.isValidChar then some (Char.ofNat code) else none

/-- The number that some digits stand for. -/
def Text.value (base : Nat) (digits : Text) : Nat :=
  digits.foldl (fun n c => base * n + digitValue c) 0

end SearchFilter
