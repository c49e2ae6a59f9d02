import SearchFilter.CommandLine.Log
import SearchFilter.Escape
import SearchFilter.FileSystem.Disk
import SearchFilter.Rdn
import SearchFilter.Tree

/-! # Carrying out commands

A command sees the environment and the configuration file, and answers with a response.  Only one
thing is ever done to the file system: `config init` may create the configuration file.  What is
to be done is therefore a value, a `Plan`, and doing it is left to the disk. -/

namespace SearchFilter.CommandLine

/-! ### The surroundings -/

/-- The environment variables that matter, and what is known of the user. -/
structure Environment where
  /-- The path of the configuration file. -/
  configFile : Option Text
  /-- The folder of configuration files. -/
  configHome : Option Text
  /-- The home folder; an empty text counts as none. -/
  home : Option Text
  /-- The home folder of the user's account, for want of another. -/
  accountHome : Option Text
  /-- Colours are not wanted if this is set and not empty. -/
  noColor : Option Text

/-- The home folder. -/
def Environment.homeFolder? (env : Environment) : Option Text :=
  [env.home, env.accountHome].findSome? (Option.filter (!·.isEmpty))

/-- The path of the configuration file: the one that is set, or the usual one in the folder of
configuration files, which is the folder `.config` in the home folder if it is not set. -/
def Environment.configPath (env : Environment) : Except ConfigError Text :=
  let inFolder (folder : Text) := Path.join (Path.join folder "ldapfilter") "config.toml"
  match env.configFile, env.configHome, env.homeFolder? with
  | some path, _, _ => .ok path
  | none, some folder, _ => .ok (inFolder folder)
  | none, none, some home => .ok (inFolder (Path.join home ".config"))
  | none, none, none => .error .noPath

/-- What is at the path of the configuration file. -/
inductive ConfigFile where
  | missing
  /-- There is something, but not a text. -/
  | unreadable
  | text (content : Text)
  deriving DecidableEq, Repr

/-- Is there anything at all? -/
def ConfigFile.exists : ConfigFile → Bool
  | missing => false
  | unreadable | text _ => true

/-- The configuration that holds. -/
def loadConfig (env : Environment) (file : ConfigFile) : Except ConfigError Config :=
  match env.configPath, file with
  | .error e, _ => .error e
  | .ok _, .missing => .ok Config.standard
  | .ok _, .unreadable => .error .unreadable
  | .ok _, .text content => Config.read content

/-- What a verbose run tells about the configuration that holds. -/
def configReport (env : Environment) (file : ConfigFile) : Text :=
  match env.configPath, file with
  | .ok path, .missing => Log.noConfig path
  | .ok path, .text content => Log.readingConfig path content
  | _, _ => []

/-- How to put the output. -/
structure Format where
  json : Bool
  colors : Bool

/-- Flags win over the configuration, and the environment over both as to colours. -/
def Format.choose (env : Environment) (settings : Settings) (config : Config) : Format :=
  { json := settings.json || config.output.json.getD false
    colors := !settings.noColor && !env.noColor.any (!·.isEmpty) && config.output.color.getD true }

/-! ### Tasks -/

/-- A filter as a canonical string, as a tree or as JSON. -/
def showFilter (format : Format) (tree : Bool) (f : Filter) : Text :=
  if format.json then
    let members : List (Text × Json) := if tree then [("tree", f.treeJson)] else []
    jsonLines (.object (f.summaryMembers ++ members))
  else if tree then line (f.treeText (Style.label.onlyIf format.colors))
  else line f.render

/-- Attributes and values, one pair to a line or as JSON. -/
def showPairs (format : Format) (pairs : List (Text × Text)) : Text :=
  if format.json then
    jsonLines (.array (pairs.map fun (attr, value) =>
      .object [("attribute", .string attr), ("value", .string value)]))
  else pairs.flatMap fun (attr, value) => line (attr ++ '=' :: value)

/-- A value and its escaped form, as JSON, or the escaped form alone. -/
def showEscaped (format : Format) (value : Text) : Text :=
  let escaped := Escape.escape value
  if format.json then
    jsonLines (.object [("escaped", .string escaped), ("value", .string value)])
  else line escaped

/-- The filter joined onto the base filter, if there is one. -/
def joinBase (config : Config) (f : Filter) : Filter :=
  match config.baseFilter with
  | some base => base.combine f
  | none => f

def perform (format : Format) (config : Config) : Task → Except FilterError Text
  | .parse text tree noBase => do
    let parsed ← Filter.parse text
    let f := if noBase then parsed else joinBase config parsed
    return showFilter format tree f
  | .expr literal tree => do
    let expression ← Expression.read literal
    let f ← expression.filter
    return showFilter format tree f
  | .and texts => do
    let filters ← texts.mapM Filter.parse
    return showFilter format false (Filter.all filters)
  | .item attr value op escape =>
    let value := if escape then Escape.escape value else value
    .ok (showFilter format false (Filter.assertion attr op value))
  | .rdn name asFilter => do
    let pairs ← Rdn.pairs name
    if asFilter then
      let f ← Rdn.conjunction pairs
      return showFilter format false f
    else return showPairs format pairs
  | .escape value => .ok (showEscaped format value)

/-- What a verbose run tells while it carries out a task.  A filter that is parsed is told once
more, outside the log. -/
def taskReport (config : Config) : Task → Text
  | .parse text _ noBase =>
    Log.reading text ++
      match Filter.parse text with
      | .error _ => []
      | .ok parsed =>
        line ("parsed: " ++ parsed.render) ++
          if noBase then [] else config.baseFilter.elim [] (Log.joining · parsed)
  | .expr literal _ => (Expression.read literal).toOption.elim [] Log.building
  | .and texts =>
    Log.readingAll texts ++
      (texts.mapM Filter.parse).toOption.elim [] (Log.combiningAll Filter.everything)
  | .item .. | .rdn .. | .escape _ => []

/-- The response to a task, but for what is told on the way. -/
def taskOutcome (env : Environment) (settings : Settings) (config : Config) (task : Task) :
    Response :=
  match perform (.choose env settings config) config task with
  | .error e => .failed settings (.filter e)
  | .ok stdout => .success stdout

def taskResponse (env : Environment) (settings : Settings) (file : ConfigFile) (task : Task) :
    Response :=
  .telling settings (configReport env file) <|
    match loadConfig env file with
    | .error e => .failed settings (.config e)
    | .ok config =>
      .telling settings (taskReport config task) (taskOutcome env settings config task)

/-! ### The configuration commands

How these put their output does not depend on the configuration. -/

def truth (value : Bool) : Text := if value then "true" else "false"

/-- One setting, if it is there. -/
def settingLine (name : Text) (value : Option Text) : Text :=
  match value with
  | some value => line ("  " ++ name ++ ": " ++ value)
  | none => []

def configText (colors : Bool) (path : Text) (found : Bool) (config : Config) : Text :=
  line (line ((Style.heading.onlyIf colors).paint "Configuration")) ++
    line ("File: " ++ path) ++ line (line ("Exists: " ++ truth found)) ++
    if found then
      line "Settings:" ++
        settingLine "base_filter" (some (config.baseFilter.elim "(none)" Filter.render)) ++
        line (line [] ++ "[output]") ++
        settingLine "color" (config.output.color.map truth) ++
        settingLine "json" (config.output.json.map truth)
    else line "(No config file exists. Run 'ldapfilter config init' to create one.)"

/-- The response to `config show`. -/
def displayResponse (env : Environment) (settings : Settings) (file : ConfigFile) : Response :=
  .telling settings (configReport env file) <|
    match loadConfig env file, env.configPath with
    | .error e, _ | _, .error e => .failed settings (.config e)
    | .ok config, .ok path =>
      let format := Format.choose env settings Config.standard
      .success
        (if format.json then
          jsonLines (.object [("config", config.json), ("exists", .boolean file.exists),
            ("path", .string path)])
        else if settings.quiet then []
        else configText format.colors path file.exists config)

def pathResponse (settings : Settings) (path : Text) (found : Bool) : Response :=
  .success
    (if settings.json then jsonLines (.object [("exists", .boolean found), ("path", .string path)])
    else line path)

def initResponse (settings : Settings) (path : Text) (created : Bool) : Response :=
  .success
    (if settings.json then
      jsonLines (.object [("path", .string path),
        ("status", .string (if created then "created" else "exists"))])
    else if settings.quiet then []
    else if created then line ("Created default config at: " ++ path)
    else line ("Config already exists at: " ++ path))

/-! ### Plans -/

/-- What a run comes to. -/
inductive Plan where
  /-- A response. -/
  | respond (response : Response)
  /-- A new configuration file, and a response to how that went. -/
  | create (path : Text) (response : Except ConfigError Unit → Response)

/-- What a command for the configuration file comes to. -/
def configPlan (env : Environment) (settings : Settings) (file : ConfigFile) :
    ConfigAction → Plan
  | .display => .respond (displayResponse env settings file)
  | .path =>
    match env.configPath with
    | .error e => .respond (.failed settings (.config e))
    | .ok path => .respond (pathResponse settings path file.exists)
  | .init =>
    match env.configPath with
    | .error e => .respond (.failed settings (.config e))
    | .ok path =>
      if file.exists then .respond (initResponse settings path false)
      else
        .create path fun
          | .ok () => initResponse settings path true
          | .error e => .failed settings (.config e)

/-- What a run with the given arguments comes to. -/
def plan (env : Environment) (file : ConfigFile) (arguments : List Text) : Plan :=
  match read arguments with
  | .error stop => .respond (.stopped stop)
  | .ok (settings, .task task) => .respond (taskResponse env settings file task)
  | .ok (settings, .config action) => configPlan env settings file action
  | .ok (_, .completions _) => .respond (.success Response.completions)

end SearchFilter.CommandLine
