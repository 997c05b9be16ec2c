import Gntp.Connections
import Gntp.Exchange
import Gntp.Listener
import Gntp.Options

/-! The daemon from its command line up to the point where it listens. -/

namespace Gntp

/-- What log lines say about the moment and the system they are written in. -/
structure Surroundings where
  time : Bytes
  thread : Bytes
  /-- The system's own words for a failure. -/
  reason : Bytes := []

structure Run where
  files : Files
  logging : Logging := {}
  output : Bytes := []
  errors : Bytes := []
  /-- What the console sink of the log shows. -/
  console : Bytes := []
  deriving DecidableEq

/-- How a run goes on. -/
inductive Ending where
  | exit (code : Nat)
  /-- The daemon listens and handles requests. -/
  | listening (options : Options) (store : Store)
  deriving DecidableEq

namespace Run

def log (around : Surroundings) (records : List Record) (r : Run) : Run :=
  { r with
    console := r.console ++ r.logging.shown around.time around.thread records
    files := r.logging.save around.time around.thread records r.files }

/-- Ends with a line on the error stream. -/
def fail (line : Bytes) (r : Run) : Ending × Run :=
  (.exit 1, { r with errors := r.errors ++ ascii "Error: " ++ line ++ [Bytes.lf] })

end Run

namespace Daemon

/-- The first record of a run without passwords. -/
def openWarning (o : Options) : List Record :=
  if o.passwords = [] then
    [.warning (ascii "Main: No password configured, accepting unauthenticated requests")]
  else []

/-- The records of the keyring and of the registry that goes with it. -/
def keyringRecords (o : Options) : List Record :=
  let count := Decimal.ofNat o.passwords.length ++ ascii " passwords"
  [.debug (ascii "Password keyring: Loaded " ++ count),
    .info (ascii "Registry: Initialized with " ++ count)]

def storeRecords (o : Options) : List Record :=
  if ¬ o.discardResources ∧ o.storePath ≠ [] then
    [.info (ascii "Store: Initializing Store with base path: " ++ o.storePath)]
  else []

/-- The store that the options ask for: none, on disk, or in memory. -/
def openStore (o : Options) : Action Files Store := fun files =>
  if o.discardResources then .ok .discard files
  else if o.storePath ≠ [] then
    match Store.Disk.prepareBase o.storePath files with
    | .ok root files => .ok (.disk { base := o.storePath, root, files }) files
    | .error failure files => .error failure files
  else .ok (.memory { limit := o.memoryLimit * 1024 * 1024 }) files

def service (o : Options) (suite : Suite) (now : Int) (origin : Origin) : Service where
  gate := {
    suite
    keyring := { passwords := o.passwords }
    policy := if o.ignoreUnauthorizedNotify then .ignoreNotify else .reject
    now }
  origin

/-- Tries to listen. If that fails, everything is shut down again. -/
def listen (around : Surroundings) (o : Options) (store : Store) (r : Run) : Ending × Run :=
  let (connections, started) := Connections.create o.readTimeout
  let (listener, created) := Listener.create o.port o.host
  match listener.listen around.reason with
  | (true, _, listening) =>
    (.listening o store, r.log around (started ++ created ++ listening))
  | (false, _, refused) =>
    (r.log around (started ++ created ++ refused ++ connections.shutdown.2)).fail
      (ascii "Failed to listen on " ++ listener.endpoint)

/-- Sets everything up and tries to listen. -/
def serve (around : Surroundings) (o : Options) (r : Run) : Ending × Run :=
  let r := r.log around (openWarning o ++ keyringRecords o ++ storeRecords o)
  match openStore o r.files with
  | .ok store files => listen around o store { r with files }
  | .error _ files =>
    { r with files }.fail (ascii "Failed to run listener: " ++ around.reason)

/-- Runs the daemon on a command line. -/
def start (around : Surroundings) (commandLine : List Bytes) (files : Files) : Ending × Run :=
  let program := Options.program commandLine
  match Options.parse commandLine with
  | (_, some fault) => (.exit 1, { files, errors := Options.complaint program fault })
  | (o, none) =>
    if o.showHelp then (.exit 0, { files, output := Options.usage program })
    else
      let least := if o.verbose then Severity.debug else Severity.info
      match Logging.init files o.logFile least {} with
      | .ok _ logging => serve around o { files, logging }
      | .error _ logging =>
        (.exit 1, { files, logging, errors := Logging.complaint around.reason })

end Daemon

end Gntp
