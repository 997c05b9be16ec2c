import Gntp.Assoc
import Gntp.Failure

/-! A tree of files and directories: as much of a file system as the daemon and its store use.
A path is the list of names from the root. A file has a serial number that stays with it when it
is moved, so an open file is followed by its number and not by its name. -/

namespace Gntp

/-- The names from the root to a file or directory. -/
abbrev Path := List Bytes

/-- What stands at a path. -/
inductive Node where
  | directory
  | file (serial : Nat) (content : Bytes)
  deriving DecidableEq

/-- A tree of files and directories. -/
structure Files where
  /-- Everything but the root. -/
  nodes : List (Path × Node) := []
  /-- Where relative paths start, unless it was removed. -/
  workingDirectory : Option Path := some []
  nextSerial : Nat := 0
  deriving DecidableEq

namespace Files

/-- What stands at a path. The root is a directory. -/
def nodeAt? (fs : Files) (path : Path) : Option Node :=
  if path = [] then some .directory else fs.nodes.lookup path

def isDirectory (fs : Files) (path : Path) : Bool := fs.nodeAt? path = some .directory

def slash : UInt8 := 0x2f

/-- The name of a directory inside itself. -/
def here : Bytes := ascii "."

/-- The name of a directory's parent inside it. -/
def parent : Bytes := ascii ".."

/-- How many bytes a name has at most. -/
def nameLimit : Nat := 255

/-- How many bytes a path text has at most. -/
def textLimit : Nat := 4095

/-- How many directories are created at once at most. -/
def depthLimit : Nat := 1000

/-- Goes to a name inside a directory. -/
def enter (fs : Files) (path : Path) (name : Bytes) : Except MoveFault Path :=
  match fs.nodeAt? path with
  | none => .error .missing
  | some (.file ..) => .error .notADirectory
  | some .directory =>
    if name = [] ∨ name = here then .ok path
    else if name = parent then .ok path.dropLast
    else if nameLimit < name.length then .error .nameTooLong
    else .ok (path ++ [name])

/-- Where a path text starts, and the names in it. The text ends before its first zero byte. -/
def start (fs : Files) (text : Bytes) : Except MoveFault (Path × List Bytes) :=
  let text := text.takeWhile (· ≠ 0)
  if text = [] then .error .missing
  else if textLimit < text.length then .error .nameTooLong
  else if text.head? = some slash then .ok ([], Bytes.splitOn slash text)
  else match fs.workingDirectory with
    | none => .error .missing
    | some path => .ok (path, Bytes.splitOn slash text)

/-- The path that a text names. All but its last name exist. -/
def resolve (fs : Files) (text : Bytes) : Except MoveFault Path := do
  let (path, names) ← fs.start text
  names.foldlM fs.enter path

/-- What a path text names. -/
def find? (fs : Files) (text : Bytes) : Option Node :=
  match fs.resolve text with
  | .ok path => fs.nodeAt? path
  | .error _ => none

/-- Goes to a name inside a directory, and creates it as a directory if it is not there. -/
def enterNew (path : Path) (name : Bytes) : EStateM MoveFault Files Path := do
  if name = [] ∨ name = here then return path
  else if name = parent then return path.dropLast
  else
    let next := path ++ [name]
    match (← get).nodeAt? next with
    | some .directory => return next
    | some (.file ..) => throw .notADirectory
    | none =>
      if nameLimit < name.length then throw .nameTooLong
      modify fun fs => { fs with nodes := Assoc.set next .directory fs.nodes }
      return next

/-- Creates a directory and those above it. What was created before a failure stays. -/
def createDirectories (path : Path) : EStateM MoveFault Files Unit :=
  discard (path.foldlM enterNew [])

/-- How many directories have to be created on the way from a path along these names. -/
def missingCount (fs : Files) (path : Path) (names : List Bytes) : Nat :=
  if (fs.nodeAt? path).isNone then
    1 + names.countP fun name => name ≠ [] ∧ name ≠ here ∧ name ≠ parent
  else match names with
    | [] => 0
    | name :: names =>
      match fs.enter path name with
      | .ok next => fs.missingCount next names
      | .error _ => 0

/-- Creates the directory that a path text names and those above it, and returns its path. -/
def createNamed (text : Bytes) : EStateM MoveFault Files Path := do
  match (← get).start text with
  | .error fault => throw fault
  | .ok (path, names) =>
    if depthLimit < (← get).missingCount path names then throw .nameTooLong
    names.foldlM enterNew path

/-- Opens a file for writing from its start, and returns its serial number. It is created if need
be and emptied otherwise. -/
def openEmpty? (fs : Files) (path : Path) : Option (Nat × Files) :=
  if ¬ fs.isDirectory path.dropLast then none
  else match fs.nodeAt? path with
    | some .directory => none
    | some (.file serial _) =>
      some (serial, { fs with nodes := Assoc.set path (.file serial []) fs.nodes })
    | none =>
      some (fs.nextSerial, { fs with
        nodes := Assoc.set path (.file fs.nextSerial []) fs.nodes
        nextSerial := fs.nextSerial + 1 })

/-- A content with `data` written over it from an offset on; a gap is filled with zero bytes. -/
def overwrite (content : Bytes) (offset : Nat) (data : Bytes) : Bytes :=
  content.take offset ++ List.replicate (offset - content.length) 0 ++ data ++
    content.drop (offset + data.length)

/-- Writes to the file with a serial number, wherever it is now. -/
def writeAt (fs : Files) (serial offset : Nat) (data : Bytes) : Files :=
  { fs with nodes := fs.nodes.map fun (path, node) =>
      match node with
      | .file s content =>
        if s = serial then (path, .file s (overwrite content offset data)) else (path, node)
      | .directory => (path, node) }

/-- Puts a file with this content at a path, if that is possible. -/
def write (fs : Files) (path : Path) (content : Bytes) : Files :=
  match fs.openEmpty? path with
  | none => fs
  | some (serial, fs) => fs.writeAt serial 0 content

/-- Adds to the end of a file, which is created if need be. -/
def append (fs : Files) (path : Path) (data : Bytes) : Files :=
  match fs.nodeAt? path with
  | some (.file serial content) => fs.writeAt serial content.length data
  | _ => fs.write path data

/-- Whether a path is above another one or the same. -/
def isAbove (upper lower : Path) : Bool := upper.isPrefixOf lower

def isEmptyDirectory (fs : Files) (path : Path) : Bool :=
  !fs.nodes.any fun (p, _) => p ≠ path && isAbove path p

/-- Takes away what stands at a path and everything below it. -/
def removeAll (fs : Files) (path : Path) : Files :=
  { fs with nodes := fs.nodes.filter fun (p, _) => !isAbove path p }

/-- Takes away the working directory with everything below it. -/
def removeWorkingDirectory (fs : Files) : Files :=
  match fs.workingDirectory with
  | none => fs
  | some path => { fs.removeAll path with workingDirectory := none }

/-- Takes away a file or an empty directory. Anything else stays. -/
def remove (fs : Files) (path : Path) : Files :=
  match fs.nodeAt? path with
  | some .directory => if fs.isEmptyDirectory path then fs.removeAll path else fs
  | _ => fs.removeAll path

/-- Moves what stands at one path to another one in the same directory. A file replaces a file and
a directory an empty directory. -/
def move (fs : Files) (source target : Path) : Except MoveFault Files :=
  let moved := { fs.removeAll target with
    nodes := (fs.removeAll target).nodes.map fun (p, node) =>
      (if isAbove source p then target ++ p.drop source.length else p, node) }
  match source.foldlM fs.enter [], fs.nodeAt? source, fs.nodeAt? target with
  | .error fault, _, _ => .error fault
  | _, none, _ => .error .missing
  | _, some (.file ..), some .directory => .error .isADirectory
  | _, some .directory, some (.file ..) => .error .notADirectory
  | _, some .directory, some .directory =>
    if fs.isEmptyDirectory target then .ok moved else .error .notEmpty
  | _, some _, _ => .ok moved

def text (path : Path) : Bytes := [slash].intercalate path

/-- Everything below a directory by relative path text, in byte order. -/
def listing (fs : Files) (directory : Path) : List (Bytes × Node) :=
  let below := fs.nodes.filterMap fun (path, node) =>
    if path ≠ directory ∧ isAbove directory path then
      some (text (path.drop directory.length), node)
    else none
  below.mergeSort fun a b => a.1 ≤ b.1

end Files

end Gntp
