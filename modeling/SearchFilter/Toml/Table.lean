import SearchFilter.Text.Basic

/-! # TOML tables

A TOML document defines one table by headers and entries in any order.  How a table came to be
decides what may still be added to it:

* a table in braces is complete;
* a table with a header of its own takes the entries under the header, and tables under longer
  headers;
* a table that is only mentioned on the way to another one, in a header, may get its own header
  later;
* a table that dotted keys made may be extended by further dotted keys, but never gets a header.

Every function here fails if a definition breaks these rules. -/

namespace SearchFilter.Toml

/-- How a table came to be. -/
inductive Origin where
  /-- It stands in braces. -/
  | inline
  /-- It has a header. -/
  | header
  /-- It is on the way to a table with a header. -/
  | implied
  /-- It is on the way to an entry with a dotted key. -/
  | dotted
  deriving DecidableEq, Repr

/-- A TOML value.  Of a floating-point number and of a date or time only the kind is kept. -/
inductive Value where
  | string (value : Text)
  | integer (value : Int)
  | float
  | dateTime
  | boolean (value : Bool)
  | array (items : List Value)
  | table (origin : Origin) (entries : List (Text × Value))
  /-- An array of tables, each with a header: the entries of the last one, and the tables before
  it, the latest first. -/
  | tables (last : List (Text × Value)) (earlier : List Value)

/-- The entries of a table. -/
abbrev Entries := List (Text × Value)

namespace Entries

def get? (key : Text) (entries : Entries) : Option Value := entries.lookup key

/-- Change what stands at a key, where there may be nothing yet. -/
def alter (key : Text) (change : Option Value → Option Value) : Entries → Option Entries
  | [] => (change none).map fun value => [(key, value)]
  | (k, v) :: entries =>
    if k = key then (change (some v)).map fun value => (k, value) :: entries
    else (alter key change entries).map fun entries => (k, v) :: entries

/-! ### Entries -/

/-- Change the table that a part of a dotted key leads to.  A table made by headers may be passed
on the way, but an entry is not added to it from outside. -/
def throughDotted (passing : Bool) (change : Entries → Option Entries) :
    Option Value → Option Value
  | none => (change []).map (.table .dotted)
  | some (.table .dotted entries) => (change entries).map (.table .dotted)
  | some (.table .implied entries) =>
    if passing then (change entries).map (.table .implied) else none
  | some (.tables last earlier) =>
    if passing then (change last).map (.tables · earlier) else none
  | some _ => none

/-- Change the table that the front parts of a dotted key lead to. -/
def inDotted (change : Entries → Option Entries) : List Text → Entries → Option Entries
  | [] => change
  | [part] => alter part (throughDotted false change)
  | part :: parts => alter part (throughDotted true (inDotted change parts))

/-- A key that must be new. -/
def addNew (key : Text) (value : Value) (entries : Entries) : Option Entries :=
  alter key (fun old => if old.isSome then none else some value) entries

/-- One more entry: a dotted key, as its front parts and its last one, and a value. -/
def insert (parts : List Text) (key : Text) (value : Value) (entries : Entries) :
    Option Entries :=
  inDotted (addNew key value) parts entries

/-! ### Headers -/

/-- Change the table that a part of a header leads to. -/
def throughHeader (change : Entries → Option Entries) : Option Value → Option Value
  | none => (change []).map (.table .implied)
  | some (.table .inline _) => none
  | some (.table origin entries) => (change entries).map (.table origin)
  | some (.tables last earlier) => (change last).map (.tables · earlier)
  | some _ => none

/-- Change the table that a path of headers leads to. -/
def inHeader (change : Entries → Option Entries) : List Text → Entries → Option Entries
  | [] => change
  | part :: parts => alter part (throughHeader (inHeader change parts))

/-- A table gets its header. -/
def defineTable (parts : List Text) (key : Text) (entries : Entries) : Option Entries :=
  let define : Option Value → Option Value
    | none => some (.table .header [])
    | some (.table .implied entries) => some (.table .header entries)
    | some _ => none
  inHeader (alter key define) parts entries

/-- An array of tables gets one table more. -/
def appendTable (parts : List Text) (key : Text) (entries : Entries) : Option Entries :=
  let append : Option Value → Option Value
    | none => some (.tables [] [])
    | some (.tables last earlier) => some (.tables [] (.table .header last :: earlier))
    | some _ => none
  inHeader (alter key append) parts entries

end Entries
end SearchFilter.Toml
