import SearchFilter.CommandLine.Run

/-! # The program

The outermost layer: it looks at the environment and the configuration file, makes the plan of
the run and carries it out. -/

namespace SearchFilter.CommandLine

/-! ### Accounts

The system describes a process and lists the accounts of its users in texts.  Both together tell
the home folder of the user who runs a process.

A user goes by a number.  The list has one account to a line, with colons between the fields: the
name, the password, the numbers of the user and of the group, a comment, the home folder and the
shell. -/

namespace Account

/-- The number of the user who runs the process, given the description of the process. -/
def user? (process : Text) : Option Text :=
  (process.split '\n').findSome? fun line =>
    (Text.after? "Uid:\t" line).map (·.takeWhile Char.isDigit)

/-- The home folder of a user, given the list of the accounts. -/
def home? (user accounts : Text) : Option Text :=
  (accounts.split '\n').findSome? fun account =>
    match account.split ':' with
    | [_, _, number, _, _, home, _] => if number = user then some home else none
    | _ => none

end Account

/-! ### The process -/

/-- The home folder of the user's account. -/
def readAccountHome : IO (Option Text) := do
  try
    let process ← IO.FS.readFile "/proc/self/status"
    let accounts ← IO.FS.readFile "/etc/passwd"
    return (Account.user? process.toList).bind (Account.home? · accounts.toList)
  catch _ => return none

def readEnvironment : IO Environment := do
  let setting (name : String) : IO (Option Text) := return (← IO.getEnv name).map String.toList
  return {
    configFile := ← setting "LDAPFILTER_CONFIG"
    configHome := ← setting "XDG_CONFIG_HOME"
    home := ← setting "HOME"
    accountHome := ← readAccountHome
    noColor := ← setting "NO_COLOR" }

/-- What is at a path.  A path that leads through a file, or is too long, leads nowhere. -/
def readConfigFile (path : Text) : IO ConfigFile := do
  -- The codes for a file on the way and for too long a name; they may come with either sign.
  let leadsNowhere (code : UInt32) : Bool := code ∈ [20, -20, 36, -36]
  try
    let content ← IO.FS.readFile (String.ofList path)
    return .text content.toList
  catch
    | .noFileOrDirectory .. => return .missing
    | .inappropriateType _ code _ | .invalidArgument _ code _ =>
      return if leadsNowhere code then .missing else .unreadable
    | _ => return .unreadable

/-- Create the configuration file, after the folders on the way to it. -/
def createConfigFile (path : Text) : IO (Except ConfigError Unit) := do
  let folder := Path.folderText path
  -- Nothing is created on the way to a folder whose path is too long.
  if Path.maxSize < folder.byteSize then return .error .noFolder
  try
    unless folder.isEmpty do IO.FS.createDirAll (String.ofList folder)
  catch _ => return .error .noFolder
  try
    IO.FS.writeFile (String.ofList path) (String.ofList Config.template)
  catch _ => return .error .notWritten
  return .ok ()

def putResponse (response : Response) : IO UInt32 := do
  (← IO.getStdout).putStr (String.ofList response.stdout)
  (← IO.getStderr).putStr (String.ofList response.stderr)
  return UInt32.ofNat response.exitCode

def runProcess (arguments : List String) : IO UInt32 := do
  let env ← readEnvironment
  let file ← match env.configPath with
    | .ok path => readConfigFile path
    | .error _ => pure .missing
  match plan env file (arguments.map String.toList) with
  | .respond response => putResponse response
  | .create path response =>
    let outcome ← createConfigFile path
    putResponse (response outcome)

end SearchFilter.CommandLine

def main (arguments : List String) : IO UInt32 := SearchFilter.CommandLine.runProcess arguments
