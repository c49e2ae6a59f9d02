import SearchFilter.Json.Reader
import SearchFilter.Symbolic.Expression

/-! # Symbolic literals

A symbolic expression can be written in JSON:

* `null` and `[]` are the empty expression;
* `":uid"` is an attribute, and any other string is a filter string;
* `[":and", …]` is a combination: its head is a symbol for a combinator;
* `["uid"]` is an attribute, `["uid", "lar"]` is an attribute and a value;
* `{"uid": ["lar", "bin"]}` is an attribute with several values.

A colon in front of an attribute is dropped. -/

namespace SearchFilter.Expression

/-- The expression of an array whose head names no combinator. -/
def ofItems (head : Text) : List Json → Except FilterError Expression
  | [] => .ok (presence (symbolName head))
  | [.string value] => .ok (pair (symbolName head) value)
  | _ =>
    .error (if isSymbol head then Combinator.unknown head
      else .invalidLiteral (.neitherGroupNorPair head))

/-- A value in the mapping of an attribute. -/
def mappedValue (key : Text) : Json → Except FilterError Text
  | .string value => .ok value
  | value => .error (.invalidLiteral (.valueNotString value.compact key))

def ofMembers : List (Text × Json) → Except FilterError Expression
  | [(key, .array items)] => do
    let texts ← items.mapM (mappedValue key)
    return mapping (symbolName key) texts
  | [(key, _)] => .error (.invalidLiteral (.valuesNotArray key))
  | members => .error (.invalidLiteral (.mappingSize members.length))

mutual

/-- The expression that a JSON value stands for. -/
def ofJson : Json → Except FilterError Expression
  | .null => .ok empty
  | .string (':' :: attr) => .ok (presence attr)
  | .string text => .ok (literal text)
  | .array [] => .ok empty
  | .array (.string head :: items) =>
    if isSymbol head && (Combinator.ofName? (symbolName head)).isSome then do
      let clauses ← ofJsonAll items
      return nested head clauses
    else ofItems head items
  | .array (_ :: _) => .error (.invalidLiteral .headlessSequence)
  | .object members => ofMembers members
  | value => .error (.invalidLiteral (.unexpectedValue value.compact))

/-- The expressions that some JSON values stand for; the first failure counts. -/
def ofJsonAll : List Json → Except FilterError (List Expression)
  | [] => .ok []
  | item :: items => do
    let clause ← ofJson item
    let clauses ← ofJsonAll items
    return clause :: clauses

end

def read (text : Text) : Except FilterError Expression :=
  match Json.read text with
  | some value => ofJson value
  | none => .error (.invalidLiteral .notJson)

end SearchFilter.Expression
