import SearchFilter.Filter.Basic

/-! # Commands and arguments

What the program can be asked to do, and how that is read from its arguments.

The arguments are read from left to right.  The program itself, each command and each command of
`config` is a level of its own: it has its flags, and either arguments or commands, whose name
ends the level.  An argument that starts with a hyphen is an option, unless it is a hyphen alone
or stands behind `--`; options and other arguments may be mixed.

An option that asks for the version or for help is obeyed as soon as it is met, provided that
nothing was wrong before.  What is missing, or excluded by something else, is only found out at
the end. -/

namespace SearchFilter

/-! ### Commands -/

inductive Flag where
  | verbose
  | quiet
  | json
  | noColor
  | tree
  | noBase
  | escape
  | filter
  deriving DecidableEq, Repr

namespace Flag

/-- The flag as it is written behind two hyphens. -/
def long : Flag → Text
  | verbose => "verbose"
  | quiet => "quiet"
  | json => "json"
  | noColor => "no-color"
  | tree => "tree"
  | noBase => "no-base"
  | escape => "escape"
  | filter => "filter"

/-- The flag as it is written behind one hyphen, if it can be. -/
def short? : Flag → Option Char
  | verbose => some 'v'
  | quiet => some 'q'
  | escape => some 'e'
  | _ => none

/-- The flags that every command takes. -/
def common : List Flag := [verbose, quiet, json, noColor]

end Flag

/-- What the common flags ask for. -/
structure Settings where
  verbose : Bool
  quiet : Bool
  json : Bool
  noColor : Bool
  deriving DecidableEq, Repr

def Settings.ofFlags (flags : List Flag) : Settings :=
  { verbose := .verbose ∈ flags
    quiet := .quiet ∈ flags
    json := .json ∈ flags
    noColor := .noColor ∈ flags }

/-- Something to compute from the arguments and the configuration. -/
inductive Task where
  /-- Read a filter and join it with the base filter. -/
  | parse (filter : Text) (tree : Bool) (noBase : Bool)
  /-- Build the filter of a symbolic literal. -/
  | expr (literal : Text) (tree : Bool)
  /-- Combine filters so that all must hold. -/
  | and (filters : List Text)
  /-- Build a comparison. -/
  | item (attr : Text) (value : Text) (op : Comparison) (escape : Bool)
  /-- Take a relative distinguished name apart, or build the filter that looks it up. -/
  | rdn (name : Text) (asFilter : Bool)
  /-- Escape a value. -/
  | escape (value : Text)

/-- What to do with the configuration file. -/
inductive ConfigAction where
  /-- Show what it holds. -/
  | display
  /-- Tell where it is. -/
  | path
  /-- Create it unless it is there. -/
  | init
  deriving DecidableEq, Repr

/-- A shell for which a completion script can be made. -/
inductive Shell where
  | bash
  | zsh
  | fish
  | powershell
  deriving DecidableEq, Repr

inductive Command where
  | task (task : Task)
  | config (action : ConfigAction)
  | completions (shell : Shell)

namespace CommandLine

/-! ### Levels -/

/-- A command with arguments. -/
inductive Verb where
  | parse
  | expr
  | and
  | item
  | rdn
  | escape
  | completions
  deriving DecidableEq, Repr

/-- The names of a command, the shorter ones last. -/
def Verb.names : Verb → List Text
  | parse => ["parse", "p"]
  | expr => ["expr", "x"]
  | and => ["and"]
  | item => ["item"]
  | rdn => ["rdn"]
  | escape => ["escape"]
  | completions => ["completions"]

def Verb.ofName? (name : Text) : Option Verb :=
  [parse, expr, and, item, rdn, escape, completions].find? fun verb => name ∈ verb.names

def actionName : ConfigAction → Text
  | .display => "show"
  | .path => "path"
  | .init => "init"

def action? (name : Text) : Option ConfigAction :=
  [ConfigAction.display, .path, .init].find? fun action => name == actionName action

def shell? (name : Text) : Option Shell :=
  [("bash", Shell.bash), ("zsh", .zsh), ("fish", .fish), ("powershell", .powershell)].findSome?
    fun (known, shell) => if name = (known : Text) then some shell else none

/-- What may stand on one level of the command line. -/
structure Level where
  /-- The name under which the level tells its version. -/
  name : Text
  flags : List Flag
  /-- The level has the option `--type`, which takes a value. -/
  hasType : Bool
  /-- The level has commands, so that a word ends it. -/
  hasCommands : Bool
  /-- The greatest number of arguments, if there is one. -/
  capacity : Option Nat
  /-- May a text be an argument? -/
  accepts : Text → Bool

namespace Level

/-- A level with nothing but the common flags. -/
def bare (name : Text) : Level := ⟨name, Flag.common, false, false, some 0, fun _ => true⟩

def top : Level := { bare "ldapfilter" with hasCommands := true }

def config : Level := { bare "ldapfilter-config" with hasCommands := true }

def action (a : ConfigAction) : Level := bare ("ldapfilter-config-" ++ actionName a)

def verb : Verb → Level
  | .parse =>
    { bare "ldapfilter-parse" with flags := .tree :: .noBase :: Flag.common, capacity := some 1 }
  | .expr => { bare "ldapfilter-expr" with flags := .tree :: Flag.common, capacity := some 1 }
  | .and => { bare "ldapfilter-and" with capacity := none }
  | .item =>
    { bare "ldapfilter-item" with
      flags := .escape :: Flag.common, hasType := true, capacity := some 2 }
  | .rdn => { bare "ldapfilter-rdn" with flags := .filter :: Flag.common, capacity := some 1 }
  | .escape => { bare "ldapfilter-escape" with capacity := some 1 }
  | .completions =>
    { bare "ldapfilter-completions" with
      capacity := some 1, accepts := fun name => (shell? name).isSome }

end Level

/-! ### One level -/

/-- Why there is no command to carry out. -/
inductive Stop where
  /-- The arguments are not understood. -/
  | invalid
  /-- The version is asked for, under a name. -/
  | version (name : Text)
  /-- Help is asked for. -/
  | help
  deriving DecidableEq, Repr

/-- What has been found on a level so far. -/
structure Found where
  flags : List Flag
  type? : Option Comparison
  arguments : List Text
  /-- The value of `--type` comes next. -/
  awaitsType : Bool
  /-- Only arguments may follow. -/
  pastOptions : Bool

namespace Found

/-- Nothing has been found yet. -/
def nothing : Found := ⟨[], none, [], false, false⟩

/-- A flag; it may not be repeated. -/
def addFlag (found : Found) (flag : Flag) : Except Stop Found :=
  if flag ∈ found.flags then .error .invalid else .ok { found with flags := flag :: found.flags }

/-- The value of `--type`; it may not be repeated either. -/
def setType (found : Found) (value : Text) : Except Stop Found :=
  match found.type?, Comparison.ofName? value with
  | none, some op => .ok { found with type? := some op, awaitsType := false }
  | _, _ => .error .invalid

def addArgument (level : Level) (found : Found) (argument : Text) : Except Stop Found :=
  if level.capacity.all (found.arguments.length < ·) && level.accepts argument then
    .ok { found with arguments := found.arguments ++ [argument] }
  else .error .invalid

/-- An option behind two hyphens, with or without a value attached to it. -/
def addLong (level : Level) (found : Found) (option : Text) : Except Stop Found :=
  let name := option.takeWhile (· ≠ '=')
  match option.dropWhile (· ≠ '=') with
  | _ :: value =>
    if level.hasType && name == "type" then found.setType value else .error .invalid
  | [] =>
    if level.hasType && name == "type" then .ok { found with awaitsType := true }
    else if name = "version" then .error (.version level.name)
    else if name = "help" then .error .help
    else
      match level.flags.find? fun flag => name == flag.long with
      | some flag => found.addFlag flag
      | none => .error .invalid

/-- Options behind one hyphen.  What follows the letter of `--type` is its value. -/
def addShort (level : Level) (found : Found) : Text → Except Stop Found
  | [] => .ok found
  | 'V' :: _ => .error (.version level.name)
  | 'h' :: _ => .error .help
  | c :: rest =>
    if level.hasType && c == 't' then
      match rest with
      | [] => .ok { found with awaitsType := true }
      | '=' :: value => found.setType value
      | value => found.setType value
    else
      match level.flags.find? fun flag => flag.short? == some c with
      | some flag => do
        let found ← found.addFlag flag
        found.addShort level rest
      | none => .error .invalid

end Found

/-- Is an argument an option, or the end of the options? -/
def isOption (argument : Text) : Bool := argument.head? == some '-' && argument != ['-']

/-- One argument on a level. -/
def Found.add (level : Level) (found : Found) (argument : Text) : Except Stop Found :=
  if found.pastOptions then found.addArgument level argument
  else if isOption argument then
    if found.awaitsType then .error .invalid
    else
      match argument with
      | ['-', '-'] => .ok { found with pastOptions := true }
      | '-' :: '-' :: option => found.addLong level option
      | _ => found.addShort level argument.tail
  else if found.awaitsType then found.setType argument
  else found.addArgument level argument

/-- All that is on a level, and, if it has commands, the name of one and the arguments behind
that. -/
def scan (level : Level) (found : Found) :
    List Text → Except Stop (Found × Option (Text × List Text))
  | [] => if found.awaitsType then .error .invalid else .ok (found, none)
  | argument :: arguments =>
    if level.hasCommands && !found.pastOptions && !isOption argument then
      .ok (found, some (argument, arguments))
    else do
      let found ← found.add level argument
      scan level found arguments

def scanAll (level : Level) (arguments : List Text) : Except Stop Found :=
  Prod.fst <$> scan level .nothing arguments

/-! ### All levels -/

/-- Two flags exclude each other if they stand on the same level. -/
def Found.check (found : Found) : Except Stop Unit :=
  if .quiet ∈ found.flags ∧ .verbose ∈ found.flags then .error .invalid else .ok ()

/-- The command that is given by its name and what was found on its level. -/
def Verb.command (verb : Verb) (found : Found) : Except Stop Command :=
  match verb, found.arguments with
  | parse, [filter] =>
    .ok (.task (.parse filter (.tree ∈ found.flags) (.noBase ∈ found.flags)))
  | expr, [literal] => .ok (.task (.expr literal (.tree ∈ found.flags)))
  | and, filter :: filters => .ok (.task (.and (filter :: filters)))
  | item, [attr, value] =>
    .ok (.task (.item attr value (found.type?.getD default) (.escape ∈ found.flags)))
  | rdn, [name] => .ok (.task (.rdn name (.filter ∈ found.flags)))
  | escape, [value] => .ok (.task (.escape value))
  | completions, [name] =>
    match shell? name with
    | some shell => .ok (.completions shell)
    | none => .error .invalid
  | _, _ => .error .invalid

/-- Behind `config help` there may be the name of one command of `config`, or `help` again. -/
def configHelp : List Text → Stop
  | [] => .help
  | [name] => if name = "help" ∨ (action? name).isSome then .help else .invalid
  | _ => .invalid

/-- Behind `help` there may be the names that lead to a command, and nothing else. -/
def help : List Text → Stop
  | [] => .help
  | name :: names =>
    if name = "config" then configHelp names
    else if names.isEmpty ∧ (name = "help" ∨ (Verb.ofName? name).isSome) then .help
    else .invalid

/-- The flags and the action behind `config`; without a name the configuration is shown. -/
def readConfig (arguments : List Text) : Except Stop (List Flag × ConfigAction) := do
  let (found, rest) ← scan .config .nothing arguments
  match rest with
  | none =>
    found.check
    return (found.flags, .display)
  | some (name, arguments) =>
    if name = "help" then .error (configHelp arguments)
    else
      match action? name with
      | none => .error .invalid
      | some action =>
        let inner ← scanAll (.action action) arguments
        inner.check
        found.check
        return (found.flags ++ inner.flags, action)

/-- The flags and the command behind the name of a command. -/
def readCommand (name : Text) (arguments : List Text) : Except Stop (List Flag × Command) :=
  if name = "help" then .error (help arguments)
  else if name = "config" then do
    let (flags, action) ← readConfig arguments
    return (flags, .config action)
  else
    match Verb.ofName? name with
    | none => .error .invalid
    | some verb => do
      let found ← scanAll (.verb verb) arguments
      let command ← verb.command found
      found.check
      return (found.flags, command)

/-- The settings and the command that the arguments ask for. -/
def read (arguments : List Text) : Except Stop (Settings × Command) := do
  let (found, rest) ← scan .top .nothing arguments
  match rest with
  | none => .error .invalid
  | some (name, arguments) =>
    let (flags, command) ← readCommand name arguments
    found.check
    return (.ofFlags (found.flags ++ flags), command)

end CommandLine
end SearchFilter
