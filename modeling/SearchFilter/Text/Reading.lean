import SearchFilter.Text.Basic

/-! # Reading a text

A `Reading α` takes a value off the front of a text and leaves the rest, or fails.  Where a
reading fails nothing is taken, so `r <|> s` tries `s` on the same text.  Repetition is bounded by
the length of the text, which is enough for any reading that takes at least one character. -/

namespace SearchFilter

/-- A way to read a value from the front of a text. -/
abbrev Reading (α : Type) := StateT Text Option α

namespace Reading

variable {α : Type}

/-- The next character, which must pass a test. -/
def one (test : Char → Bool) : Reading Char := fun t =>
  match t with
  | c :: rest => if test c then some (c, rest) else none
  | [] => none

def exact (start : Text) : Reading Unit := fun t => (start.after? t).map ((), ·)

/-- The longest run of characters that pass a test; it may be empty. -/
def run (test : Char → Bool) : Reading Text := fun t => some (t.span test)

/-- The longest run of characters that pass a test, at least one. -/
def someRun (test : Char → Bool) : Reading Text := do
  let text ← run test
  if text.isEmpty then failure else pure text

/-- A given number of characters that pass a test. -/
def exactly (test : Char → Bool) : Nat → Reading Text
  | 0 => pure []
  | n + 1 => do
    let c ← one test
    return c :: (← exactly test n)

/-- The next character, which is left where it is. -/
def ahead : Reading (Option Char) := fun t => some (t.head?, t)

/-- Anything but the given text, which is left where it is. -/
def notAhead (start : Text) : Reading Unit := fun t =>
  if start.isPrefixOf t then none else some ((), t)

/-- As many values as there are to read, but no more than a given number. -/
def upTo : Nat → Reading α → Reading (List α)
  | 0, _ => pure []
  | n + 1, r => do
    match ← optional r with
    | some value => return value :: (← upTo n r)
    | none => return []

/-- As many values as there are to read. -/
def many (r : Reading α) : Reading (List α) := fun t => upTo t.length r t

/-- Values with a separator between neighbours, at least one. -/
def someSeparated (separator : Reading Unit) (r : Reading α) : Reading (List α) := do
  let first ← r
  return first :: (← many (separator *> r))

/-- Values with a separator between neighbours; there may be none. -/
def separated (separator : Reading Unit) (r : Reading α) : Reading (List α) :=
  someSeparated separator r <|> pure []

/-- The value that the whole of a text stands for. -/
def whole (r : Reading α) (t : Text) : Option α :=
  match r t with
  | some (value, []) => some value
  | _ => none

end Reading
end SearchFilter
