import SearchFilter.Toml.Scalar
import SearchFilter.Toml.Table

/-! # Reading TOML

A document is read line by line, and every line adds to the table that the document defines. -/

namespace SearchFilter.Toml

open Reading

/-- Keys may not have this many parts, and arrays and inline tables may not be nested this deep. -/
def depthLimit : Nat := 80

/-! ### Keys -/

def simpleKey : Reading Text :=
  someRun (fun c => c.isAlphanum || c == '_' || c == '-') <|> simpleString

/-- A key with its dots: the front parts, and the last one. -/
def key : Reading (List Text × Text) := do
  let parts ← someSeparated (exact ['.']) (blanks *> simpleKey <* blanks)
  if depthLimit ≤ parts.length then failure
  match parts.getLast? with
  | some last => pure (parts.dropLast, last)
  | none => failure

/-! ### Values -/

/-- An entry: a key and a value, with the blanks around them. -/
def entry (value : Reading Value) : Reading ((List Text × Text) × Value) := do
  let key ← key
  exact ['=']
  return (key, ← blanks *> value <* blanks)

def scalar : Reading Value := do
  match ← ahead with
  | some '"' | some '\'' => .string <$> string
  | some 't' => exact "true" *> pure (.boolean true)
  | some 'f' => exact "false" *> pure (.boolean false)
  | _ => dateTime *> pure .dateTime <|> float *> pure .float <|> .integer <$> integer

/-- Blanks, comments and newlines between the items of an array. -/
def gap : Reading Unit := discard (many (blanks *> optional comment *> newline)) *> blanks

/-- The items of an array up to its end; a comma may follow the last one. -/
def arrayItems (value : Reading Value) : Reading (List Value) := do
  exact ['[']
  let items ← separated (exact [',']) (gap *> value <* gap)
  if !items.isEmpty then discard (optional (exact [',']))
  gap
  exact [']']
  return items

/-- The entries of an inline table. -/
def inlineEntries (value : Reading Value) : Reading Entries := do
  exact ['\x7b'] *> blanks
  let entries ← separated (exact [',']) (entry value)
  exact ['\x7d']
  let add (table : Entries) (entry : (List Text × Text) × Value) : Option Entries :=
    Entries.insert entry.1.1 entry.1.2 entry.2 table
  (entries.foldlM add [] : Option Entries)

/-- A value with at most so many arrays and inline tables nested inside each other. -/
def value : Nat → Reading Value
  | 0 => scalar
  | depth + 1 => do
    match ← ahead with
    | some '[' => .array <$> arrayItems (value depth)
    | some '\x7b' => .table .inline <$> inlineEntries (value depth)
    | _ => scalar

/-! ### Documents -/

/-- What one line of a document holds besides blanks and a comment. -/
inductive Line where
  | blank
  /-- A key, as its front parts and its last one, and a value. -/
  | entry (parts : List Text) (key : Text) (value : Value)
  /-- The header of a table. -/
  | header (parts : List Text) (key : Text)
  /-- The header of one more table in an array of tables. -/
  | arrayHeader (parts : List Text) (key : Text)

/-- The header of a table or of one in an array. -/
def header : Reading Line :=
  (do
    exact "[["
    let (parts, last) ← key
    exact "]]"
    return .arrayHeader parts last) <|>
  (do
    exact "["
    let (parts, last) ← key
    exact "]"
    return .header parts last)

/-- One line, with all but its end. -/
def line : Reading Line := do
  blanks
  let line ← match ← ahead with
    | some '[' => header
    | some '#' | some '\n' | some '\r' | none => pure .blank
    | _ => do
      let ((parts, last), value) ← entry (value (depthLimit - 1))
      pure (.entry parts last value)
  blanks
  let _ ← optional comment
  return line

/-- The lines of a document.  A byte order mark in front of them does not count. -/
def lines : Reading (List Line) :=
  optional (exact ['\ufeff']) *> someSeparated (discard newline) line

/-- What is known of a document after some lines: the table it defines, and the header of the
table to which the next entries belong. -/
structure State where
  root : Entries
  current : List Text

/-- One line more. -/
def State.step (state : State) : Line → Option State
  | .blank => some state
  | .entry parts key value =>
    (Entries.inHeader (Entries.insert parts key value) state.current state.root).map
      fun root => ⟨root, state.current⟩
  | .header parts key => (state.root.defineTable parts key).map (⟨·, parts ++ [key]⟩)
  | .arrayHeader parts key => (state.root.appendTable parts key).map (⟨·, parts ++ [key]⟩)

/-- The table that a TOML text defines. -/
def read (text : Text) : Option Entries := do
  let lines ← lines.whole text
  let state ← lines.foldlM State.step ⟨[], []⟩
  return state.root

end SearchFilter.Toml
