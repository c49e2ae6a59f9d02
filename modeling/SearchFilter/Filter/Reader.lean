import SearchFilter.Filter.Token
import SearchFilter.Filter.Component

/-! # Reading filters

The grammar of filter strings:

```text
filter ::= "(" comp ")"
comp   ::= "&" filter+ | "|" filter+ | "!" filter | attr | attr op value
op     ::= "=" | "~=" | ">=" | "<="
```

The reader takes one token after the other and keeps the groups that are still open on a stack.
So the first error in reading order is the one reported, a text that breaks off is recognised by
the state it leaves behind, and what is read of the start of a text does not depend on the rest.

The outer parentheses of a whole filter may be left out. -/

namespace SearchFilter

/-- A combination that is being read: its combinator and its clauses so far, the latest first. -/
structure OpenGroup where
  combinator : Combinator
  clauses : List Filter

/-- The combination, if it may end here.  A group without any clause is no filter. -/
def OpenGroup.finish (source : Text) (group : OpenGroup) : Except FilterError Filter :=
  match group.clauses with
  | [] => .error (.expression source)
  | clauses => group.combinator.apply clauses.reverse

/-- What has been read so far. -/
inductive ReadState where
  /-- Nothing. -/
  | start
  /-- An opening parenthesis. -/
  | opened (outer : List OpenGroup)
  /-- An assertion inside its parentheses. -/
  | asserted (filter : Filter) (outer : List OpenGroup)
  /-- A combinator inside its parentheses, with the clauses that the group holds. -/
  | grouped (group : OpenGroup) (outer : List OpenGroup)
  /-- A whole filter. -/
  | done (filter : Filter)

namespace ReadState

/-- A filter is complete: it is a clause of the innermost open group, or the whole filter. -/
def complete (filter : Filter) : List OpenGroup → ReadState
  | [] => done filter
  | group :: outer => grouped { group with clauses := filter :: group.clauses } outer

/-- An opening parenthesis inside some open groups. -/
def openFilter (outer : List OpenGroup) : Except FilterError ReadState :=
  if outer.length < Filter.maxDepth then .ok (opened outer)
  else .error (.nestingTooDeep Filter.maxDepth)

/-- One token further.  `source` is the text that errors about the whole input quote. -/
def step (source : Text) : ReadState → Token → Except FilterError ReadState
  | start, .openParen => openFilter []
  | start, _ => .error (.expression source)
  | opened outer, .and => .ok (grouped ⟨.and, []⟩ outer)
  | opened outer, .or => .ok (grouped ⟨.or, []⟩ outer)
  | opened outer, .not => .ok (grouped ⟨.not, []⟩ outer)
  | opened outer, .assertion text =>
    match Assertion.split? text with
    | some assertion => .ok (asserted assertion.filter outer)
    | none => .error (.expression text.trim)
  | opened _, .openParen | opened _, .closeParen => .error (.expression source)
  | asserted filter outer, .closeParen => .ok (complete filter outer)
  | asserted _ _, _ => .error (.expression source)
  | grouped group outer, .openParen => openFilter (group :: outer)
  | grouped group outer, .closeParen => do
    let filter ← group.finish source
    .ok (complete filter outer)
  | grouped group _, _ => do
    let _ ← group.finish source
    .error (.expression source)
  | done _, token => .error (.unexpectedToken token.text)

/-- The filter, if the text may end here. -/
def finish (source : Text) : ReadState → Except FilterError Filter
  | done filter => .ok filter
  | grouped group _ => do
    let _ ← group.finish source
    .error .unexpectedEnd
  | _ => .error .unexpectedEnd

end ReadState

namespace Filter

def ofTokens (source : Text) (tokens : List Token) : Except FilterError Filter := do
  let state ← tokens.foldlM (ReadState.step source) .start
  state.finish source

/-- The text in parentheses, unless it starts with one. -/
def parenthesized (t : Text) : Text :=
  if t.head? = some '(' then t else '(' :: t ++ [')']

/-- The filter that a text stands for.  Blanks around it do not matter. -/
def parse (text : Text) : Except FilterError Filter :=
  let source := text.trim
  if source.isEmpty then .error .emptyExpression
  else ofTokens source (Token.tokens (parenthesized source))

end Filter
end SearchFilter
