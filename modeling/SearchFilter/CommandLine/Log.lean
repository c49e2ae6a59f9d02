import SearchFilter.CommandLine.Response
import SearchFilter.Symbolic.Literal

/-! # The log

A verbose run keeps a log on the standard error stream: where its configuration comes from, and
which filters it reads, builds and combines, entry by entry, up to the point where it fails.  The
level of the log is the one that the flags ask for; the environment sets no other.

A function here goes the way of the computation that it tells about, and puts the entries in the
order in which the steps are done. -/

namespace SearchFilter.CommandLine.Log

/-! ### Entries -/

/-- A part of the program that makes entries. -/
inductive Origin where
  | parser
  | combine
  | expression
  | filterCommand
  | config
  deriving DecidableEq, Repr

def Origin.name : Origin → Text
  | parser => "ldap_filter_rs::filter::parser"
  | combine => "ldap_filter_rs::filter::combine"
  | expression => "ldap_filter_rs::filter::expression"
  | filterCommand => "ldapfilter::commands::filter"
  | config => "ldapfilter::commands::config"

/-- A filter or a path may hold line feeds; the lines of a message after the first are indented. -/
def indent (message : Text) : Text :=
  message.flatMap fun c => if c = '\n' then "\n    ".toList else [c]

def entry (origin : Origin) (message : Text) : Text :=
  line ("[DEBUG " ++ origin.name ++ "] " ++ indent message)

/-! ### Quoted values

A text that is given to the program is told between quotes, so that it stays on one line.  The
quote, the backslash, control characters and blanks other than the space are escaped; any other
character stands for itself, even if it cannot be shown alone, such as a combining mark. -/

def isControl (c : Char) : Bool := c.toNat < 0x20 || (0x7F ≤ c.toNat && c.toNat < 0xA0)

/-- One character between quotes. -/
def quotedChar (c : Char) : Text :=
  if c = '"' then "\\\""
  else if c = '\\' then "\\\\"
  else if c = '\x00' then "\\0"
  else if c = '\t' then "\\t"
  else if c = '\n' then "\\n"
  else if c = '\r' then "\\r"
  else if c != ' ' && (isControl c || isBlank c) then
    "\\u\x7b" ++ Nat.toDigits 16 c.toNat ++ ['\x7d']
  else [c]

def quoted (t : Text) : Text := '"' :: t.flatMap quotedChar ++ ['"']

def bracketed (items : List Text) : Text := '[' :: Text.join ", " items ++ [']']

/-- A value with named fields. -/
def fielded (name : Text) (fields : List (Text × Text)) : Text :=
  name ++ " \x7b " ++ Text.join ", " (fields.map fun (field, value) => field ++ ": " ++ value) ++
    " \x7d"

mutual

/-- An expression in full. -/
def spelled : Expression → Text
  | .empty => "Empty"
  | .literal text => "Literal(" ++ quoted text ++ ")"
  | .presence attr => "Attribute(" ++ quoted attr ++ ")"
  | .pair attr value => fielded "Pair" [("attribute", quoted attr), ("value", quoted value)]
  | .nested symbol clauses =>
    fielded "Nested"
      [("combinator", quoted symbol), ("clauses", bracketed (spelledAll clauses))]
  | .mapping attr values =>
    fielded "Values"
      [("attribute", quoted attr), ("values", bracketed (values.map quoted))]

def spelledAll : List Expression → List Text
  | [] => []
  | clause :: clauses => spelled clause :: spelledAll clauses

end

/-! ### Filters -/

/-- A text is read, and the filter is told if there is one. -/
def reading (text : Text) : Text :=
  match Filter.parse text with
  | .ok f => entry .parser ("parsed filter " ++ quoted text.trim ++ " as " ++ f.render)
  | .error _ => []

/-- Texts are read one after the other, up to the first that is no filter. -/
def readingAll : List Text → Text
  | [] => []
  | text :: texts =>
    reading text ++
      match Filter.parse text with
      | .ok _ => readingAll texts
      | .error _ => []

/-- Two filters are combined; it is told which one remains if the other is dropped. -/
def combining (f g : Filter) : Text :=
  if f.isPromiscuous then
    entry .combine ("combine: left operand is promiscuous, keeping " ++ g.render)
  else if g.isPromiscuous then
    entry .combine ("combine: right operand is promiscuous, keeping " ++ f.render)
  else []

/-- Filters are combined with a first one, from the left. -/
def combiningAll (f : Filter) : List Filter → Text
  | [] => []
  | g :: filters => combining f g ++ combiningAll (f.combine g) filters

/-- A filter is joined onto a base filter. -/
def joining (base f : Filter) : Text :=
  entry .filterCommand ("joining base filter " ++ base.render) ++ combining base f

mutual

/-- The filter of an expression at some depth is built. -/
def buildingAt (depth : Nat) (e : Expression) : Text :=
  if Filter.maxDepth < depth then []
  else
    match e with
    | .literal text => reading text
    | .nested symbol clauses =>
      match Combinator.ofSymbol symbol with
      | .error _ => []
      | .ok combinator =>
        clausesAt (depth + 1) clauses ++
          match Expression.filtersAt (depth + 1) clauses with
          | .error _ => []
          | .ok filters =>
            entry .expression
              ("building " ++ combinator.name ++ " over " ++ Text.ofNat filters.length ++
                " clause(s)")
    | _ => []

/-- The filters of some clauses at some depth are built, up to the first that cannot be. -/
def clausesAt (depth : Nat) : List Expression → Text
  | [] => []
  | clause :: clauses =>
    buildingAt depth clause ++
      match Expression.filtersAt depth [clause] with
      | .ok _ => clausesAt depth clauses
      | .error _ => []

end

/-- The filter of an expression is built. -/
def building (e : Expression) : Text :=
  entry .filterCommand ("symbolic literal: " ++ spelled e) ++ buildingAt 1 e

/-! ### Configuration -/

/-- The base filter in a document, as a text, if it is looked at: the keys are taken in the order
in which they stand there, up to the first with a value of the wrong kind. -/
def baseFilterText? (document : Toml.Entries) : Option Text :=
  let before : Toml.Entries := document.takeWhile fun (key, _) => key != "base_filter".toList
  match document.get? "base_filter" with
  | some (.string text) =>
    if (Config.version? (before.get? "version")).isSome &&
        (Config.preferences? (before.get? "output")).isSome then some text
    else none
  | _ => none

/-- A configuration file is read. -/
def readingConfig (path content : Text) : Text :=
  match Toml.read content with
  | none => []
  | some document =>
    (baseFilterText? document).elim [] reading ++
      if (Config.ofDocument? document).isSome then entry .config ("loaded config from " ++ path)
      else []

/-- There is no configuration file. -/
def noConfig (path : Text) : Text :=
  entry .config ("no config at " ++ path ++ ", using defaults")

end SearchFilter.CommandLine.Log
