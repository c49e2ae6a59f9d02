import SearchFilter.Text.Basic

/-! # Search filters

A directory search filter is an assertion about one attribute, or a combination of filters.
There are three kinds of assertion:

* `(attr=*)` tests that the attribute is present;
* `(attr=value)`, `(attr~=value)`, `(attr>=value)`, `(attr<=value)` compare it with a value;
* `(attr=pat*tern)` matches it against a pattern in which `*` stands for any text.

`Filter.assertion` decides which of the three an attribute, an operator and a value make.  The
tree itself holds any texts at all: which texts an attribute or a value may be is a matter of
reading (`Filter.parse`), and a filter built from parts may fail to be read back. -/

namespace SearchFilter

/-! ### Comparison operators -/

/-- How a comparison relates an attribute to a value. -/
inductive Comparison where
  | equal
  | approx
  | greater
  | less
  deriving DecidableEq, Repr

namespace Comparison

/-- The operator as it is written in a filter. -/
def symbol : Comparison → Text
  | equal => "="
  | approx => "~="
  | greater => ">="
  | less => "<="

/-- The operator's name. -/
def name : Comparison → Text
  | equal => "equal"
  | approx => "approx"
  | greater => "greater"
  | less => "less"

/-- The operators, the default one first. -/
def list : List Comparison := [equal, approx, greater, less]

def ofName? (name : Text) : Option Comparison := list.find? fun op => op.name == name

/-- The operator used where none is given is equality. -/
instance : Inhabited Comparison := ⟨equal⟩

end Comparison

/-! ### The filter tree -/

inductive Filter where
  /-- The attribute is present: `(attr=*)`. -/
  | presence (attr : Text)
  /-- The attribute compares with the value: `(attr=value)`, `(attr~=value)` and so on. -/
  | item (attr : Text) (op : Comparison) (value : Text)
  /-- The attribute matches a pattern with wildcards: `(attr=pat*tern)`. -/
  | substring (attr : Text) (pattern : Text)
  /-- Every clause holds: `(&f1f2…)`. -/
  | and (clauses : List Filter)
  /-- Some clause holds: `(|f1f2…)`. -/
  | or (clauses : List Filter)
  /-- The inner filter does not hold: `(!f)`. -/
  | not (inner : Filter)

/-- The attribute that every directory entry has. -/
def objectClass : Text := "objectClass"

namespace Filter

/-- The assertion that an attribute, an operator and a value make: equality with `*` alone is a
presence test, equality with a value that holds a `*` is a substring test, and all else is a
comparison. -/
def assertion (attr : Text) (op : Comparison) (value : Text) : Filter :=
  match op with
  | .equal =>
    if value = ['*'] then presence attr
    else if '*' ∈ value then substring attr value
    else item attr .equal value
  | op => item attr op value

/-- The clauses of an `and` or an `or`. -/
def clauses? : Filter → Option (List Filter)
  | and clauses | or clauses => some clauses
  | _ => none

/-! ### The written form -/

mutual

/-- The filter as it is written, less its own parentheses. -/
def fragment : Filter → Text
  | presence attr => attr ++ "=*"
  | item attr op value => attr ++ op.symbol ++ value
  | substring attr pattern => attr ++ '=' :: pattern
  | and clauses => '&' :: renderAll clauses
  | or clauses => '|' :: renderAll clauses
  | not inner => '!' :: '(' :: fragment inner ++ [')']

/-- Filters written one after the other, each in its parentheses. -/
def renderAll : List Filter → Text
  | [] => []
  | f :: fs => '(' :: fragment f ++ ')' :: renderAll fs

end

/-- The canonical string of a filter: parentheses around every filter and no blanks between. -/
def render (f : Filter) : Text := '(' :: f.fragment ++ [')']

/-! ### Depth -/

/-- The greatest number of filters that may be nested inside each other. -/
def maxDepth : Nat := 128

mutual

/-- How many filters are nested inside each other: one for an assertion, one more than the
deepest clause for a combination. -/
def depth : Filter → Nat
  | presence _ | item .. | substring .. => 1
  | and clauses | or clauses => depthAll clauses + 1
  | not inner => inner.depth + 1

/-- The depth of the deepest of some filters. -/
def depthAll : List Filter → Nat
  | [] => 0
  | f :: fs => max f.depth (depthAll fs)

end

/-! ### Kinds -/

/-- The kind of a filter's outermost layer. -/
inductive Kind where
  | presence
  | item (op : Comparison)
  | substring
  | and
  | or
  | not
  deriving DecidableEq, Repr

/-- The kind's name; a comparison goes by the name of its operator. -/
def Kind.name : Kind → Text
  | presence => "presence"
  | item op => op.name
  | substring => "substring"
  | and => "and"
  | or => "or"
  | not => "not"

def kind : Filter → Kind
  | presence _ => .presence
  | item _ op _ => .item op
  | substring .. => .substring
  | and _ => .and
  | or _ => .or
  | not _ => .not

/-! ### Equality -/

mutual

def decEq : (f g : Filter) → Decidable (f = g)
  | presence a, presence b => decidable_of_iff (a = b) (by simp)
  | item a op v, item b op' w => decidable_of_iff (a = b ∧ op = op' ∧ v = w) (by simp)
  | substring a p, substring b q => decidable_of_iff (a = b ∧ p = q) (by simp)
  | and fs, and gs | or fs, or gs =>
    match decEqAll fs gs with
    | isTrue h => isTrue (by rw [h])
    | isFalse h => isFalse (by simp [h])
  | not f, not g =>
    match decEq f g with
    | isTrue h => isTrue (by rw [h])
    | isFalse h => isFalse (by simp [h])
  | presence _, item .. | presence _, substring .. | presence _, and _ | presence _, or _
  | presence _, not _ | item .., presence _ | item .., substring .. | item .., and _
  | item .., or _ | item .., not _ | substring .., presence _ | substring .., item ..
  | substring .., and _ | substring .., or _ | substring .., not _ | and _, presence _
  | and _, item .. | and _, substring .. | and _, or _ | and _, not _ | or _, presence _
  | or _, item .. | or _, substring .. | or _, and _ | or _, not _ | not _, presence _
  | not _, item .. | not _, substring .. | not _, and _ | not _, or _ =>
    isFalse (by simp)

def decEqAll : (fs gs : List Filter) → Decidable (fs = gs)
  | [], [] => isTrue rfl
  | [], _ :: _ | _ :: _, [] => isFalse (by simp)
  | f :: fs, g :: gs =>
    match decEq f g, decEqAll fs gs with
    | isTrue h, isTrue hs => isTrue (by rw [h, hs])
    | isFalse h, _ => isFalse (by simp [h])
    | _, isFalse hs => isFalse (by simp [hs])

end

instance : DecidableEq Filter := decEq

end Filter

/-! ### Combinators

The three ways to make a filter out of filters.  `and` and `or` take one clause or more, `not`
takes exactly one. -/

/-- A way to make one filter out of several. -/
inductive Combinator where
  | and
  | or
  | not
  deriving DecidableEq, Repr

namespace Combinator

/-- The combinator's name. -/
def name : Combinator → Text
  | and => "and"
  | or => "or"
  | not => "not"

/-- The character that stands for the combinator in a filter string. -/
def operator : Combinator → Char
  | and => '&'
  | or => '|'
  | not => '!'

/-- How many clauses the combinator takes, in words. -/
def arity : Combinator → Text
  | and | or => "1 or more"
  | not => "1"

end Combinator

end SearchFilter
