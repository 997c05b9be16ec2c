import Gntp.Daemon
import Std.Time.Format

/-! The daemon as a program. It works on a picture of the files it may meet, and what has changed
in the picture is brought to the real files afterwards. A listening daemon takes its request from
standard input and answers on standard output, so that whoever accepts connections can start one
for each of them. -/

namespace Gntp.Program

/-- The bytes of a text of the system. -/
def bytes (text : String) : Bytes := text.toUTF8.toList

/-- A text of the system with these bytes. -/
def string (b : Bytes) : String := (String.fromUTF8? ⟨b.toArray⟩).getD ""

/-- The names in a path text from the root. -/
def names (place : String) : Path := (Bytes.splitOn Files.slash (bytes place)).filter (· ≠ [])

def place (path : Path) : String := string (Files.slash :: Files.text path)

/-- What stands at a path text and above it, without contents. -/
def above (text : String) : IO (List (Path × Node)) := do
  let mut found := []
  let mut upper := (← IO.currentDir) / (if text.startsWith "/" then "/" else ".")
  for name in text.splitOn "/" do
    upper := upper / (if name.isEmpty then "." else name)
    if ← upper.pathExists then
      let node := if ← upper.isDir then Node.directory else .file 0 []
      found := found ++ [(names (← IO.FS.realPath upper).toString, node)]
  return found

/-- What stands below a directory, down to some depth, without contents. -/
def below (depth : Nat) (text : String) : IO (List (Path × Node)) := do
  match depth with
  | 0 => return []
  | depth + 1 =>
    let directory := (← IO.currentDir) / text
    unless ← directory.isDir do return []
    let mut found := []
    for entry in ← directory.readDir do
      let next := text ++ "/" ++ entry.fileName
      let node := if ← entry.path.isDir then Node.directory else .file 0 []
      let path := names (← IO.FS.realPath entry.path).toString
      found := found ++ (path, node) :: (← below depth next)
    return found

/-- How many levels a store has below its base directory. -/
def storeDepth : Nat := (Store.Disk.namesOf []).length

/-- The picture of the files that a run with these options may meet. -/
def picture (o : Options) : IO Files := do
  let cwd := (← IO.currentDir).toString
  let mut nodes ← above cwd
  for text in [o.storePath, o.logFile] do
    if text ≠ [] then nodes := nodes ++ (← above (string text))
  if o.storePath ≠ [] then nodes := nodes ++ (← below storeDepth (string o.storePath))
  return {
    nodes := nodes.zipIdx.map fun ((path, node), serial) =>
      (path, if node = .directory then node else .file serial [])
    workingDirectory := some (names cwd)
    nextSerial := nodes.length }

/-- Brings the real files from one picture to a later one: what is new is created, and what has
grown is added to. -/
def save (before after : Files) : IO Unit := do
  for (path, node) in after.nodes do
    match before.nodeAt? path, node with
    | none, .directory => IO.FS.createDirAll (place path)
    | none, .file _ content => IO.FS.writeBinFile (place path) ⟨content.toArray⟩
    | some (.file _ old), .file _ content =>
      let added := content.drop old.length
      if added ≠ [] then
        let file ← IO.FS.Handle.mk (place path) .append
        file.write ⟨added.toArray⟩
    | some _, _ => pure ()

/-- Writes to a stream at once. -/
def print (stream : IO.FS.Stream) (b : Bytes) : IO Unit := do
  stream.write ⟨b.toArray⟩
  stream.flush

/-- The moment, the thread, and the words for what the system refuses. -/
def surroundings : IO Surroundings := do
  let now ← Std.Time.PlainDateTime.now
  return {
    time := bytes (now.format "uuuu-MM-dd HH:mm:ss.SSSSSS")
    thread := bytes (toString (← IO.getTID))
    reason := ascii "Invalid argument" }

/-- The first line of a file of the system, or another text if it cannot be read. -/
def firstLine (file fallback : String) : IO Bytes := do
  try
    return (Bytes.splitOn Bytes.lf (← IO.FS.readBinFile file).toList).headD []
  catch _ => return bytes fallback

def origin : IO Origin := do
  return .ofMachine (← firstLine "/etc/hostname" "localhost")
    (← firstLine "/proc/sys/kernel/ostype" "Unknown") (← firstLine "/proc/sys/kernel/osrelease" "")

/-- Reads on until a request is complete or refused, or the input ends. -/
partial def exchange (service : Service) (world : World) (arrived : Bytes) : IO Outcome := do
  let outcome := service.handle world arrived
  if outcome.handled then return outcome
  let more ← (← IO.getStdin).read 8192
  if more.isEmpty then return outcome
  exchange service world (arrived ++ more.toList)

/-- Logs some records of a listening daemon. -/
def log (run : Run) (records : List Record) : IO Unit := do
  let after := { run with console := [] }.log (← surroundings) records
  print (← IO.getStderr) after.console
  save run.files after.files

def serve (o : Options) (store : Store) (run : Run) : IO Unit := do
  let now := (← Std.Time.Timestamp.now).toSecondsSinceUnixEpoch.val
  let service := Daemon.service o .full now (← origin)
  let outcome ← exchange service { store } []
  print (← IO.getStdout) outcome.output
  log run (outcome.shown.flatMap Notification.records)
  if let .disk d := outcome.world.store then save run.files d.files

/-- Runs the daemon on the arguments after its name. -/
def execute (arguments : List String) : IO UInt32 := do
  let commandLine := ascii "gntpd" :: arguments.map bytes
  let files ← picture (Options.parse commandLine).1
  let (ending, run) := Daemon.start (← surroundings) commandLine files
  print (← IO.getStdout) run.output
  print (← IO.getStderr) (run.errors ++ run.console)
  save files run.files
  match ending with
  | .exit code => return code.toUInt32
  | .listening o store =>
    serve o store run
    return 0

end Gntp.Program

def main (arguments : List String) : IO UInt32 := Gntp.Program.execute arguments
