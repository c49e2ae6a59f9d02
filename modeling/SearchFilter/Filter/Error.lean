import SearchFilter.Filter.Basic

/-! # Errors

Why a text, a symbolic literal or a list of clauses makes no filter.  An error names its cause;
`FilterError.message` puts it into words. -/

namespace SearchFilter

/-- Why a JSON value is no symbolic literal.  A value is shown as compact JSON text. -/
inductive LiteralFault where
  /-- The text is not JSON. -/
  | notJson
  /-- A value that is neither null, a string, an array nor an object. -/
  | unexpectedValue (value : Text)
  /-- An array that does not start with a string. -/
  | headlessSequence
  /-- An array whose head is no combinator and which is not short enough for a comparison. -/
  | neitherGroupNorPair (head : Text)
  /-- An object that does not have exactly one key. -/
  | mappingSize (found : Nat)
  /-- An object whose key has no array as its value. -/
  | valuesNotArray (attr : Text)
  /-- An array of values that holds something else than a string. -/
  | valueNotString (value : Text) (attr : Text)
  /-- A mapping of an attribute to values that is not a clause. -/
  | mappingOutsideGroup (attr : Text)
  deriving DecidableEq, Repr

/-- What goes wrong in reading or building a filter. -/
inductive FilterError where
  /-- There is nothing but blanks. -/
  | emptyExpression
  /-- The fragment is no filter and no assertion. -/
  | expression (fragment : Text)
  /-- The text ends inside a filter. -/
  | unexpectedEnd
  /-- The token stands behind the end of the filter. -/
  | unexpectedToken (token : Text)
  /-- The symbol names no combinator; it may be close to one that does. -/
  | unknownCombinator (symbol : Text) (suggestion : Option Text)
  /-- The combinator does not take as many clauses as were given. -/
  | argumentCount (combinator : Combinator) (found : Nat)
  /-- The text is no attribute description. -/
  | invalidAttribute (attr : Text)
  /-- More filters are nested inside each other than the limit allows. -/
  | nestingTooDeep (limit : Nat)
  /-- A list of filters is given where one filter is needed. -/
  | bareList
  /-- The JSON value is no symbolic literal. -/
  | invalidLiteral (fault : LiteralFault)
  deriving DecidableEq, Repr

/-- The reason in words, if there is one to give. -/
def LiteralFault.reason? : LiteralFault → Option Text
  | notJson => none
  | unexpectedValue value => some ("unexpected value " ++ value)
  | headlessSequence => some "a sequence must start with a symbol or attribute name"
  | neitherGroupNorPair head =>
    some ("'" ++ head ++ "' is neither a combinator nor an attribute/value pair")
  | mappingSize found =>
    some ("mapping must have exactly one attribute, found " ++ Text.ofNat found)
  | valuesNotArray attr => some ("values of '" ++ attr ++ "' must be an array")
  | valueNotString value attr => some ("value " ++ value ++ " of '" ++ attr ++ "' is not a string")
  | mappingOutsideGroup attr =>
    some ("mapping for '" ++ attr ++ "' is only valid as a combinator clause")

namespace FilterError

def message : FilterError → Text
  | emptyExpression => "filter expression is empty"
  | expression fragment => "unable to parse filter expression '" ++ fragment ++ "'"
  | unexpectedEnd => "unexpected end of filter expression"
  | unexpectedToken token => "unexpected token: " ++ token
  | unknownCombinator symbol none => "unknown combinator '" ++ symbol ++ "'"
  | unknownCombinator symbol (some suggestion) =>
    "unknown combinator '" ++ symbol ++ "' (did you mean '" ++ suggestion ++ "'?)"
  | argumentCount combinator found =>
    "wrong number of clauses for " ++ combinator.name ++ " (given " ++ Text.ofNat found ++
      ", expected " ++ combinator.arity ++ ")"
  | invalidAttribute attr => "invalid attribute name: '" ++ attr ++ "'"
  | nestingTooDeep limit => "filter nesting exceeds " ++ Text.ofNat limit ++ " levels"
  | bareList => "a filter list must sit inside '&' or '|'"
  | invalidLiteral fault =>
    match fault.reason? with
    | some reason => "invalid filter literal: " ++ reason
    | none => "invalid filter literal"

/-- Is the error a wrong number of clauses, as opposed to input that no rule of the grammar
covers? -/
def isUsage : FilterError → Bool
  | argumentCount .. => true
  | _ => false

end FilterError
end SearchFilter
