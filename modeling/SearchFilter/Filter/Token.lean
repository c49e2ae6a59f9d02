import SearchFilter.Filter.Basic

/-! # Tokens

A filter string is cut into parentheses, operator characters and assertions.

* Blanks in front of a token are dropped.
* `&`, `|` and `!` are operators only directly after an opening parenthesis (blanks between the
  two do not matter); elsewhere they are part of an assertion.
* An assertion runs up to the next parenthesis or the end of the text, its trailing blanks
  included. -/

namespace SearchFilter

inductive Token where
  | openParen
  | closeParen
  | and
  | or
  | not
  | assertion (text : Text)
  deriving DecidableEq, Repr

namespace Token

/-- The token as it stands in the filter string. -/
def text : Token → Text
  | openParen => "("
  | closeParen => ")"
  | and => "&"
  | or => "|"
  | not => "!"
  | assertion text => text

/-- The operator that a character is. -/
def operator? : Char → Option Token
  | '&' => some and
  | '|' => some or
  | '!' => some not
  | _ => none

def isParen (c : Char) : Bool := c == '(' || c == ')'

/-- The first token of a text and what follows it, where `afterOpen` tells whether the text itself
follows an opening parenthesis. -/
def next? (afterOpen : Bool) (s : Text) : Option (Token × Text) :=
  match s.trimStart with
  | [] => none
  | '(' :: rest => some (openParen, rest)
  | ')' :: rest => some (closeParen, rest)
  | c :: rest =>
    match if afterOpen then operator? c else none with
    | some operator => some (operator, rest)
    | none =>
      some (assertion (c :: rest.takeWhile fun c => !isParen c),
        rest.dropWhile fun c => !isParen c)

theorem length_lt_of_next? {afterOpen : Bool} {s rest : Text} {token : Token}
    (h : next? afterOpen s = some (token, rest)) : rest.length < s.length := by
  have trimmed := (List.dropWhile_suffix (l := s) isBlank).length_le
  unfold next? at h
  split at h
  · cases h
  · rename_i eq; cases h
    simp only [Text.trimStart] at eq; rw [eq] at trimmed; exact trimmed
  · rename_i eq; cases h
    simp only [Text.trimStart] at eq; rw [eq] at trimmed; exact trimmed
  · rename_i c tail _ _ eq
    simp only [Text.trimStart] at eq; rw [eq] at trimmed
    split at h
    · cases h; exact trimmed
    · cases h
      have run := (List.dropWhile_suffix (l := tail) fun c => !isParen c).length_le
      simp only [List.length_cons] at trimmed
      omega

/-- The tokens of a text, where `afterOpen` tells whether it follows an opening parenthesis. -/
def scan (afterOpen : Bool) (s : Text) : List Token :=
  match h : next? afterOpen s with
  | none => []
  | some (token, rest) =>
    have : rest.length < s.length := length_lt_of_next? h
    token :: scan (token == openParen) rest
termination_by s.length

def tokens (s : Text) : List Token := scan false s

end Token

/-! ### Assertions

The text between the parentheses of an assertion is an attribute description, an operator and a
value, with blanks allowed around each.  The attribute description is the longest run of letters,
digits, `-`, `.` and `;` at the start; the value is all that follows the operator. -/

/-- May the character stand in an attribute description (a name or a dotted number, with options
after semicolons)? -/
def isAttributeChar (c : Char) : Bool := c.isAlphanum || c == '-' || c == '.' || c == ';'

def isAttribute (t : Text) : Bool := !t.isEmpty && t.all isAttributeChar

inductive Assertion where
  /-- An attribute alone. -/
  | bare (attr : Text)
  /-- An attribute, an operator and a value without blanks at its ends. -/
  | compare (attr : Text) (op : Comparison) (value : Text)
  deriving DecidableEq, Repr

namespace Assertion

/-- The operator at the start of a text, and what follows it. -/
def operator? : Text → Option (Comparison × Text)
  | '~' :: '=' :: rest => some (.approx, rest)
  | '>' :: '=' :: rest => some (.greater, rest)
  | '<' :: '=' :: rest => some (.less, rest)
  | '=' :: rest => some (.equal, rest)
  | _ => none

/-- The parts of an assertion text.  There are none if it does not start with an attribute
description, or if something else than an operator follows that. -/
def split? (text : Text) : Option Assertion :=
  let text := text.trim
  let attr := text.takeWhile isAttributeChar
  let rest := Text.trimStart (text.dropWhile isAttributeChar)
  if attr.isEmpty then none
  else if rest.isEmpty then some (bare attr)
  else (operator? rest).map fun (op, value) => compare attr op value.trim

/-- The filter that an assertion makes: an attribute alone tests for presence. -/
def filter : Assertion → Filter
  | bare attr => .presence attr
  | compare attr op value => .assertion attr op value

end Assertion

end SearchFilter
