import SearchFilter.Filter.Reader
import SearchFilter.Text.Spelling

/-! # Symbolic expressions

A symbolic expression writes a filter as nested lists, such as
`[:or, (uid=lar), {uid: [bin, daemon]}]`.  Its parts that are texts are read like any filter
string.  `Expression.filter` builds the filter.

A mapping of an attribute to values stands for one equality test per value, in the place where it
is a clause; it is no filter by itself. -/

namespace SearchFilter

/-! ### Symbols

A symbol names a combinator in a symbolic expression: `and` or `&`, `or` or `|`, `not` or `!`,
each with or without a colon in front.  For any other symbol the error suggests the nearest name,
if that is near enough to be what was meant. -/

/-- What a symbol names: the text without one leading colon. -/
def symbolName : Text → Text
  | ':' :: name => name
  | name => name

/-- Is the text marked as a symbol, by a colon or by being an operator? -/
def isSymbol (text : Text) : Bool :=
  text.head? == some ':' || text == ['&'] || text == ['|'] || text == ['!']

namespace Combinator

def list : List Combinator := [and, or, not]

/-- The combinator of a name or an operator. -/
def ofName? (name : Text) : Option Combinator :=
  list.find? fun combinator => name == combinator.name || name == [combinator.operator]

/-- The combinator whose name is nearest to a text; of equally near ones the first. -/
def nearest (text : Text) : Combinator :=
  let nearer (c d : Combinator) :=
    if Text.editDistance text c.name ≤ Text.editDistance text d.name then c else d
  nearer and (nearer or not)

/-- The greatest distance at which a name is still suggested. -/
def suggestionDistance : Nat := 2

/-- The symbol to suggest in place of a wrong one.  Capital letters do not count. -/
def suggestion? (symbol : Text) : Option Text :=
  let name := (symbolName symbol).lowercase
  let best := nearest name
  if Text.editDistance name best.name ≤ suggestionDistance then some (':' :: best.name) else none

/-- The error for a symbol that names no combinator. -/
def unknown (symbol : Text) : FilterError := .unknownCombinator symbol (suggestion? symbol)

/-- The combinator that a symbol names. -/
def ofSymbol (symbol : Text) : Except FilterError Combinator :=
  match ofName? (symbolName symbol) with
  | some combinator => .ok combinator
  | none => .error (unknown symbol)

end Combinator

/-! ### Expressions -/

inductive Expression where
  /-- Nothing: the filter that every entry passes. -/
  | empty
  /-- A filter string. -/
  | literal (text : Text)
  /-- An attribute: a presence test. -/
  | presence (attr : Text)
  /-- An attribute and a value: an equality test. -/
  | pair (attr : Text) (value : Text)
  /-- A symbol for a combinator, and clauses. -/
  | nested (symbol : Text) (clauses : List Expression)
  /-- An attribute with several values. -/
  | mapping (attr : Text) (values : List Text)

/-- An attribute in an expression has to be an attribute description. -/
def checkAttribute (attr : Text) : Except FilterError Unit :=
  if isAttribute attr then .ok () else .error (.invalidAttribute attr)

namespace Expression

mutual

/-- The filter of an expression that stands at some depth; the outermost one stands at depth 1. -/
def filterAt (depth : Nat) (e : Expression) : Except FilterError Filter :=
  if Filter.maxDepth < depth then .error (.nestingTooDeep Filter.maxDepth)
  else
    match e with
    | empty => .ok Filter.everything
    | literal text => Filter.parse text
    | presence attr => do
      checkAttribute attr
      return .presence attr
    | pair attr value => do
      checkAttribute attr
      return .assertion attr .equal value
    | nested symbol clauses => do
      let combinator ← Combinator.ofSymbol symbol
      let filters ← filtersAt (depth + 1) clauses
      combinator.apply filters
    | mapping attr _ => .error (.invalidLiteral (.mappingOutsideGroup attr))

/-- The filters of some clauses at some depth, in order. -/
def filtersAt (depth : Nat) : List Expression → Except FilterError (List Filter)
  | [] => .ok []
  | mapping attr values :: clauses => do
    checkAttribute attr
    let filters ← filtersAt depth clauses
    return values.map (Filter.assertion attr .equal) ++ filters
  | clause :: clauses => do
    let filter ← clause.filterAt depth
    let filters ← filtersAt depth clauses
    return filter :: filters

end

def filter (e : Expression) : Except FilterError Filter := e.filterAt 1

end Expression
end SearchFilter
