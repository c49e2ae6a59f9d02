import SearchFilter.Filter.Component
import SearchFilter.Json.Basic

/-! # Views of the filter tree

A filter is shown as a text with one line for each filter in it, indented by how deep the filter
is nested, or as a JSON value. -/

namespace SearchFilter

/-! ### Styles

Text is set off by escape sequences in front of it and behind it. -/

/-- How a part of the output is set off. -/
inductive Style where
  /-- As it is. -/
  | plain
  /-- Bold cyan, for the labels of a tree. -/
  | label
  /-- Bold green, for headings. -/
  | heading
  deriving DecidableEq, Repr

def escapeSequence (code : Text) : Text := '\x1b' :: '[' :: code ++ ['m']

def boldIn (colour : Text) (t : Text) : Text :=
  escapeSequence "1" ++ escapeSequence colour ++ t ++ escapeSequence "39" ++ escapeSequence "0"

def Style.paint : Style → Text → Text
  | plain, t => t
  | label, t => boldIn "36" t
  | heading, t => boldIn "32" t

/-- The style, or none at all if colours are not wanted. -/
def Style.onlyIf (style : Style) (colours : Bool) : Style := if colours then style else plain

namespace Filter

/-! ### Lines -/

mutual

/-- All filters inside a filter, itself included, each in front of its clauses and with the level
at which it stands. -/
def outline (level : Nat) : Filter → List (Nat × Filter)
  | and clauses => (level, and clauses) :: outlineAll (level + 1) clauses
  | or clauses => (level, or clauses) :: outlineAll (level + 1) clauses
  | not inner => (level, not inner) :: outline (level + 1) inner
  | f => [(level, f)]

def outlineAll (level : Nat) : List Filter → List (Nat × Filter)
  | [] => []
  | f :: fs => outline level f ++ outlineAll level fs

end

/-- What stands behind the label of a filter: the assertion, or nothing for a combination. -/
def detail : Filter → Text
  | presence attr => ' ' :: attr
  | and _ | or _ | not _ => []
  | f => ' ' :: f.fragment

/-- The line of a filter at a level: the indentation, the label and the detail. -/
def treeLine (style : Style) (level : Nat) (f : Filter) : Text :=
  List.replicate (2 * level) ' ' ++ style.paint f.kind.name ++ f.detail

def treeLines (style : Style) (f : Filter) : List Text :=
  (f.outline 0).map fun (level, g) => treeLine style level g

def treeText (style : Style) (f : Filter) : Text := Text.join ['\n'] (f.treeLines style)

/-! ### JSON -/

mutual

/-- The tree of a filter as a JSON value. -/
def treeJson : Filter → Json
  | presence attr => .object [("attribute", .string attr), ("type", .string "presence")]
  | item attr op value =>
    .object [("attribute", .string attr), ("type", .string op.name), ("value", .string value)]
  | substring attr pattern =>
    .object [("attribute", .string attr), ("pattern", .string pattern),
      ("type", .string "substring")]
  | and clauses =>
    .object [("clauses", .array (treeJsonAll clauses)), ("type", .string "and")]
  | or clauses =>
    .object [("clauses", .array (treeJsonAll clauses)), ("type", .string "or")]
  | not inner => .object [("clause", treeJson inner), ("type", .string "not")]

def treeJsonAll : List Filter → List Json
  | [] => []
  | f :: fs => treeJson f :: treeJsonAll fs

end

/-- A filter in short: its canonical string, and whether every entry passes it. -/
def summaryMembers (f : Filter) : List (Text × Json) :=
  [("filter", .string f.render), ("promiscuous", .boolean f.isPromiscuous)]

def summaryJson (f : Filter) : Json := .object f.summaryMembers

end Filter
end SearchFilter
