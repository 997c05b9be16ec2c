import Gntp.Decimal

/-! The command line of the daemon. Arguments are read from left to right up to the first one that
is wrong; the options read before it stay. -/

namespace Gntp

/-- What the command line asks for. -/
structure Options where
  host : Bytes := ascii "0.0.0.0"
  port : Nat := 23053
  passwords : List Bytes := []
  /-- The directory for resources; empty keeps them in memory. -/
  storePath : Bytes := []
  discardResources : Bool := false
  /-- The limit on resources in memory, in MiB. -/
  memoryLimit : Nat := 64
  /-- The file to log to as well, if not empty. -/
  logFile : Bytes := []
  verbose : Bool := false
  /-- How long a connection may be idle, in seconds; 0 is for ever. -/
  readTimeout : Nat := 0
  ignoreUnauthorizedNotify : Bool := false
  showHelp : Bool := false
  deriving DecidableEq

/-- An option that takes a value. -/
inductive Setting where
  | host
  | port
  | password
  | store
  | memoryLimit
  | logFile
  | readTimeout
  deriving DecidableEq

/-- An option without a value. -/
inductive Switch where
  | discardResources
  | verbose
  | ignoreUnauthorizedNotify
  | help
  deriving DecidableEq

/-- What is wrong with a command line. -/
inductive UsageFault where
  | unknownArgument (argument : Bytes)
  | missingValue (argument : Bytes)
  | badValue (argument value : Bytes)
  | emptyHost
  | storeAndDiscard
  deriving DecidableEq

namespace UsageFault

def message : UsageFault → Bytes
  | unknownArgument argument => ascii "Unknown argument: " ++ argument
  | missingValue argument => ascii "Missing value for " ++ argument
  | badValue argument value => ascii "Invalid value for " ++ argument ++ ascii ": " ++ value
  | emptyHost => ascii "Host must not be empty"
  | storeAndDiscard => ascii "--store and --discard-resources are mutually exclusive"

end UsageFault

namespace Setting

/-- The ways to write the options that take a value. -/
def spellings : List (Bytes × Setting) := [
  (ascii "-h", host), (ascii "--host", host),
  (ascii "-p", port), (ascii "--port", port),
  (ascii "-k", password), (ascii "--password", password),
  (ascii "-s", store), (ascii "--store", store),
  (ascii "--memory-limit", memoryLimit),
  (ascii "-l", logFile), (ascii "--log-file", logFile),
  (ascii "--read-timeout", readTimeout)]

/-- A number from `low` to `high`. -/
def number? (low high : Nat) (value : Bytes) : Option Nat :=
  (Decimal.between? low high value).map Int.toNat

/-- Gives the option its value, if it is one. -/
def set? (setting : Setting) (value : Bytes) (o : Options) : Option Options :=
  match setting with
  | host => some { o with host := value }
  | port => (number? 1 65535 value).map fun n => { o with port := n }
  | password => some { o with passwords := o.passwords ++ [value] }
  | store => some { o with storePath := value }
  | memoryLimit => (number? 1 65536 value).map fun n => { o with memoryLimit := n }
  | logFile => some { o with logFile := value }
  | readTimeout => (number? 0 86400 value).map fun n => { o with readTimeout := n }

end Setting

namespace Switch

/-- The ways to write the options without a value. -/
def spellings : List (Bytes × Switch) := [
  (ascii "--discard-resources", discardResources),
  (ascii "-v", verbose), (ascii "--verbose", verbose),
  (ascii "--ignore-unauthorized-notify", ignoreUnauthorizedNotify),
  (ascii "--help", help)]

/-- Turns the option on. -/
def apply (switch : Switch) (o : Options) : Options :=
  match switch with
  | discardResources => { o with discardResources := true }
  | verbose => { o with verbose := true }
  | ignoreUnauthorizedNotify => { o with ignoreUnauthorizedNotify := true }
  | help => { o with showHelp := true }

end Switch

namespace Options

/-- What is wrong with options that do not go together. -/
def conflict? (o : Options) : Option UsageFault :=
  if o.host = [] then some .emptyHost
  else if o.storePath ≠ [] ∧ o.discardResources then some .storeAndDiscard
  else none

/-- Reads the arguments after the name of the program. -/
def parseArguments (o : Options) : List Bytes → Options × Option UsageFault
  | [] => (o, o.conflict?)
  | argument :: rest =>
    match Switch.spellings.lookup argument, Setting.spellings.lookup argument with
    | some switch, _ => parseArguments (switch.apply o) rest
    | none, none => (o, some (.unknownArgument argument))
    | none, some setting =>
      match rest with
      | [] => (o, some (.missingValue argument))
      | value :: rest =>
        match setting.set? value o with
        | none => (o, some (.badValue argument value))
        | some o => parseArguments o rest

def parse (commandLine : List Bytes) : Options × Option UsageFault :=
  parseArguments {} commandLine.tail

/-- The name of the program as it was called. -/
def program (commandLine : List Bytes) : Bytes := commandLine.headD (ascii "gntpd")

/-- What the options mean, line by line. -/
def explanation : List Bytes := [
  ascii "Options:",
  ascii "  -h, --host <address>          Listen address (default 0.0.0.0)",
  ascii "  -p, --port <port>             Listen port (default 23053)",
  ascii "  -k, --password <password>     Accepted password, may be repeated",
  ascii "  -s, --store <directory>       Keep resources on disk under directory",
  ascii "      --discard-resources       Read resources but keep nothing",
  ascii "      --memory-limit <MiB>      Memory held by in-memory resources (default 64)",
  ascii "  -l, --log-file <file>         Also log to file",
  ascii "  -v, --verbose                 Log debug messages",
  ascii "      --read-timeout <seconds>  Close connections idle this long (0 = never)",
  ascii "      --ignore-unauthorized-notify",
  ascii "                                Accept but drop NOTIFY requests with a wrong password",
  ascii "      --help                    Show this message"]

/-- How the program is used. -/
def usage (program : Bytes) : Bytes :=
  let lines := (ascii "Usage: " ++ program ++ ascii " [options]") :: explanation ++
    [ascii "Example: " ++ program ++ ascii " -p 23053 -k secret"]
  lines.flatMap fun line => line ++ [Bytes.lf]

/-- What is printed for a command line that is wrong. -/
def complaint (program : Bytes) (fault : UsageFault) : Bytes :=
  ascii "Error: " ++ fault.message ++ Bytes.lf :: usage program

end Options

end Gntp
