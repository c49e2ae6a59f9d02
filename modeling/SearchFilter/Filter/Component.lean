import SearchFilter.Filter.Error

/-! # Components

A component is what stands between the parentheses of a filter, as a caller puts it together:
an assertion that has not been classified yet, a combination of finished filters, or a bare list
of filters, which is no filter. -/

namespace SearchFilter

/-- The parts of one filter, before they are checked. -/
inductive Component where
  | presence (attr : Text)
  | item (attr : Text) (op : Comparison) (value : Text)
  | substring (attr : Text) (pattern : Text)
  | and (clauses : List Filter)
  | or (clauses : List Filter)
  | not (inner : Filter)
  /-- Filters one after the other with no operator. -/
  | list (filters : List Filter)

/-- The component as it is written. -/
def Component.render : Component → Text
  | presence attr => attr ++ "=*"
  | item attr op value => attr ++ op.symbol ++ value
  | substring attr pattern => attr ++ '=' :: pattern
  | and clauses => '&' :: Filter.renderAll clauses
  | or clauses => '|' :: Filter.renderAll clauses
  | not inner => '!' :: inner.render
  | list filters => Filter.renderAll filters

namespace Filter

/-- The filter made of a component.  A comparison or a pattern is classified anew, so that
`uid=*` given as a comparison becomes a presence test; a bare list is refused. -/
def ofComponent : Component → Except FilterError Filter
  | .presence attr => .ok (presence attr)
  | .item attr op value => .ok (assertion attr op value)
  | .substring attr pattern => .ok (assertion attr .equal pattern)
  | .and clauses => .ok (and clauses)
  | .or clauses => .ok (or clauses)
  | .not inner => .ok (not inner)
  | .list _ => .error .bareList

def component : Filter → Component
  | presence attr => .presence attr
  | item attr op value => .item attr op value
  | substring attr pattern => .substring attr pattern
  | and clauses => .and clauses
  | or clauses => .or clauses
  | not inner => .not inner

end Filter

/-! ### Making filters out of filters

`Combinator.apply` builds a combination and checks the number of its clauses.  `Filter.combine`
joins two filters so that both must hold; the filter that every entry passes adds nothing and
disappears, and `Filter.all` folds any number of filters together in this way. -/

/-- The combination of the clauses, if the combinator takes that many. -/
def Combinator.apply : Combinator → List Filter → Except FilterError Filter
  | .and, [] => .error (.argumentCount .and 0)
  | .and, clauses => .ok (.and clauses)
  | .or, [] => .error (.argumentCount .or 0)
  | .or, clauses => .ok (.or clauses)
  | .not, [inner] => .ok (.not inner)
  | .not, clauses => .error (.argumentCount .not clauses.length)

namespace Filter

/-- The filter that every entry passes: `(objectClass=*)`. -/
def everything : Filter := presence objectClass

instance : Inhabited Filter := ⟨everything⟩

/-- Is this the filter that every entry passes, spelled exactly so? -/
def isPromiscuous : Filter → Bool
  | presence attr => attr == objectClass
  | _ => false

/-- Both filters must hold.  A promiscuous one is dropped. -/
def combine (f g : Filter) : Filter :=
  if f.isPromiscuous then g
  else if g.isPromiscuous then f
  else and [f, g]

/-- All the filters must hold: they are combined from the left. -/
def all (filters : List Filter) : Filter := filters.foldl combine everything

end Filter

end SearchFilter
