import SearchFilter.Text.Basic

/-! # Paths and disks

A path is a text with slashes between its names.  Empty names and the name `.` do not lead
anywhere, and `..` leads back to the parent.  A path that ends in a slash or in `.` can only mean
a folder.

Names and whole paths have a greatest size in UTF-8 bytes.  A longer text is a path all the same,
but it leads nowhere: that is for the disk to see.

A disk holds files and folders, each at a location, that is the list of the names on the way to
it from the root.  One folder is the working folder, where relative paths start.  The root is
always a folder. -/

namespace SearchFilter

/-! ### Paths -/

/-- One name of a path that leads somewhere. -/
inductive PathStep where
  | down (name : Text)
  | up
  deriving DecidableEq, Repr

structure Path where
  /-- The path starts at the root and not at the working folder. -/
  isAbsolute : Bool
  steps : List PathStep
  /-- The path can only mean a folder. -/
  isFolder : Bool
  /-- The number of bytes of the text that stands for the path. -/
  size : Nat
  deriving DecidableEq, Repr

namespace Path

/-- The names in a text that stands for a path. -/
def names (text : Text) : List Text := text.split '/'

/-- Does a name lead nowhere? -/
def isIdle (name : Text) : Bool := name.isEmpty || name == ['.']

/-- Where a name leads. -/
def step? (name : Text) : Option PathStep :=
  if isIdle name then none
  else if name == ['.', '.'] then some .up
  else some (.down name)

/-- The path that a text stands for; the empty text stands for none. -/
def ofText? (text : Text) : Option Path :=
  if text.isEmpty then none
  else
    let names := names text
    some
      { isAbsolute := text.head? == some '/'
        steps := names.filterMap step?
        isFolder := names.getLast?.all isIdle
        size := text.byteSize }

/-- The text in front of the last name that leads somewhere.  It stands for the folder in which
the last step of a path is taken; if it is empty, that is the folder where the path starts. -/
def folderText (text : Text) : Text :=
  let fromLast := (names text).reverse.dropWhile isIdle
  let names := (fromLast.drop 1).dropWhile isIdle
  if names.isEmpty && text.head? == some '/' then ['/'] else Text.join ['/'] names.reverse

/-- A text with one name more. -/
def join (text name : Text) : Text :=
  if text.isEmpty || text.getLast? == some '/' then text ++ name else text ++ '/' :: name

/-- The greatest number of bytes of a name. -/
def maxNameSize : Nat := 255

/-- The greatest number of bytes of the text of a path. -/
def maxSize : Nat := 4095

/-- Is the name that a step goes by too long? -/
def isTooLong : PathStep → Bool
  | .down name => maxNameSize < name.byteSize
  | .up => false

end Path
/-! ### Disks -/

/-- The place of a file or folder: the names on the way to it from the root. -/
abbrev Location := List Text

inductive Node where
  | folder
  | file (content : Text)
  deriving DecidableEq, Repr

/-- The files and folders of a disk. -/
structure Disk where
  nodes : List (Location × Node)
  workingFolder : Location

namespace Disk

/-! ### Looking for files -/

/-- What is at a location. -/
def node? (disk : Disk) : Location → Option Node
  | [] => some .folder
  | location => disk.nodes.lookup location

def isFolder (disk : Disk) (location : Location) : Bool := disk.node? location == some .folder

/-- The location one step further. -/
def next (location : Location) : PathStep → Location
  | .down name => location ++ [name]
  | .up => location.dropLast

/-- The location to which some steps lead.  Every step starts in a folder and goes by a name that
is not too long; what the last one leads to need not exist. -/
def walk (disk : Disk) (start : Location) : List PathStep → Option Location
  | [] => some start
  | step :: steps =>
    if disk.isFolder start && !Path.isTooLong step then disk.walk (next start step) steps
    else none

def start (disk : Disk) (path : Path) : Location :=
  if path.isAbsolute then [] else disk.workingFolder

/-- The location that a path means, unless the path is too long. -/
def locate? (disk : Disk) (path : Path) : Option Location :=
  if path.size ≤ Path.maxSize then disk.walk (disk.start path) path.steps else none

/-- The file or folder that a path means. -/
def find? (disk : Disk) (path : Path) : Option Node := do
  let location ← disk.locate? path
  let node ← disk.node? location
  if path.isFolder && node != .folder then none else some node

/-! ### Changing files -/

/-- The disk with a new file or folder at a location. -/
def put (disk : Disk) (location : Location) (node : Node) : Disk :=
  { disk with nodes := (location, node) :: disk.nodes.filter fun entry => entry.1 != location }

/-- Create the folders on the way along some steps where there is nothing yet, and tell whether
all steps lead to folders then. -/
def createAlong (disk : Disk) (start : Location) : List PathStep → Bool × Disk
  | [] => (true, disk)
  | step :: steps =>
    if Path.isTooLong step then (false, disk)
    else
      let location := next start step
      match disk.node? location with
      | some .folder => disk.createAlong location steps
      | some (.file _) => (false, disk)
      | none => (disk.put location .folder).createAlong location steps

/-- Create the folder that a path means and those on the way to it, where there is nothing yet,
and tell whether the path means a folder then. -/
def createFolders (disk : Disk) (path : Path) : Bool × Disk :=
  if path.size ≤ Path.maxSize then disk.createAlong (disk.start path) path.steps
  else (false, disk)

/-- Write a file, unless the path leads nowhere or means a folder. -/
def write? (disk : Disk) (path : Path) (content : Text) : Option Disk := do
  let location ← disk.locate? path
  if path.isFolder || disk.isFolder location then none
  else some (disk.put location (.file content))

end Disk
end SearchFilter
