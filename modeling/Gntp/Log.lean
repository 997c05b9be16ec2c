import Gntp.Action
import Gntp.Files

/-! Log records, and where they go once the logging is set up: each record that is severe enough
is a line on the console and, if there is one, in the log file. -/

namespace Gntp

/-- How severe a log record is, from the least severe one. -/
inductive Severity where
  | trace
  | debug
  | info
  | warning
  | error
  | fatal
  deriving DecidableEq

namespace Severity

def name : Severity → Bytes
  | trace => ascii "trace"
  | debug => ascii "debug"
  | info => ascii "info"
  | warning => ascii "warning"
  | error => ascii "error"
  | fatal => ascii "fatal"

def rank : Severity → Nat
  | trace => 0
  | debug => 1
  | info => 2
  | warning => 3
  | error => 4
  | fatal => 5

def all : List Severity := [trace, debug, info, warning, error, fatal]

def ofName? (name : Bytes) : Option Severity := all.find? fun severity => severity.name = name

end Severity

structure Record where
  severity : Severity
  text : Bytes
  deriving DecidableEq

namespace Record

def debug (text : Bytes) : Record := ⟨.debug, text⟩

def info (text : Bytes) : Record := ⟨.info, text⟩

def warning (text : Bytes) : Record := ⟨.warning, text⟩

def error (text : Bytes) : Record := ⟨.error, text⟩

/-- The line of a record, with the time and the thread at which it was made. -/
def line (time thread : Bytes) (r : Record) : Bytes :=
  time ++ ascii " [" ++ r.severity.name ++ ascii "] [Thread " ++ thread ++ ascii "] " ++ r.text ++
    [Bytes.lf]

end Record

structure Logging where
  /-- Whether there is a console sink. -/
  console : Bool := false
  /-- The path of the log file. -/
  file : Option Bytes := none
  /-- Less severe records are dropped. -/
  least : Severity := .trace
  deriving DecidableEq

namespace Logging

/-- The path text of a file from the root. There is none for a relative name without a working
directory. -/
def absolute (files : Files) (name : Bytes) : Option Bytes :=
  if name.head? = some Files.slash then some name
  else files.workingDirectory.map fun path =>
    Files.slash :: Files.text path ++ Files.slash :: name

/-- Sets up the logging in place of an earlier one. The console comes first; if the log file has
no absolute name, it stays alone and the least severity stays what it was. -/
def init (files : Files) (name : Bytes) (least : Severity) : Action Logging Unit := fun l =>
  if name = [] then .ok () ⟨true, none, least⟩
  else match absolute files name with
    | some path => .ok () ⟨true, some path, least⟩
    | none => .error .fileSystem { l with console := true, file := none }

/-- What is printed when the logging cannot be set up. -/
def complaint (reason : Bytes) : Bytes :=
  ascii "Failed to initialize logging: " ++ reason ++ [Bytes.lf]

/-- Whether a record is severe enough to be written anywhere. -/
def accepts (l : Logging) (r : Record) : Bool := l.console && l.least.rank ≤ r.severity.rank

/-- What the console shows of some records. -/
def shown (l : Logging) (time thread : Bytes) (records : List Record) : Bytes :=
  (records.filter l.accepts).flatMap fun r => r.line time thread

/-- Adds some records to the log file. It is created at the first record. -/
def save (l : Logging) (time thread : Bytes) (records : List Record) (files : Files) : Files :=
  match l.file with
  | none => files
  | some name =>
    (records.filter l.accepts).foldl (fun files r =>
      match files.resolve name with
      | .ok path => files.append path (r.line time thread)
      | .error _ => files) files

end Logging

end Gntp
