import SearchFilter.CommandLine.Run

/-! # Runs on a disk

A run looks at the configuration file, makes its plan and carries it out.  A session is several
runs, one after the other, on one disk. -/

namespace SearchFilter.CommandLine

/-- What is at the path of the configuration file. -/
def configFile (env : Environment) (disk : Disk) : ConfigFile :=
  match env.configPath with
  | .error _ => .missing
  | .ok text =>
    match (Path.ofText? text).bind disk.find? with
    | none => .missing
    | some .folder => .unreadable
    | some (.file content) => .text content

/-- Create the folder of a file, if it is not the one where the path starts. -/
def createFolderOf (path : Text) (disk : Disk) : Bool × Disk :=
  match Path.ofText? (Path.folderText path) with
  | none => (true, disk)
  | some folder => disk.createFolders folder

/-- Create the configuration file, after the folders on the way to it.  The folders remain even
if the file cannot be written then. -/
def createConfig (path : Text) (disk : Disk) : Except ConfigError Unit × Disk :=
  let (created, disk) := createFolderOf path disk
  if !created then (.error .noFolder, disk)
  else
    match (Path.ofText? path).bind fun path => disk.write? path Config.template with
    | none => (.error .notWritten, disk)
    | some disk => (.ok (), disk)

def run (env : Environment) (arguments : List Text) (disk : Disk) : Response × Disk :=
  match plan env (configFile env disk) arguments with
  | .respond response => (response, disk)
  | .create path response =>
    let (outcome, disk) := createConfig path disk
    (response outcome, disk)

/-- Several runs, each in its own environment. -/
def runAll : List (Environment × List Text) → Disk → List Response × Disk
  | [], disk => ([], disk)
  | (env, arguments) :: runs, disk =>
    let (response, disk) := run env arguments disk
    let (responses, disk) := runAll runs disk
    (response :: responses, disk)

end SearchFilter.CommandLine
