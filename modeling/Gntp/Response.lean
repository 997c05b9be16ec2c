import Gntp.Headers

/-! The answer to a request: a status line, headers, and a blank line. -/

namespace Gntp

/-- Whether a request was accepted. -/
inductive Status where
  | ok
  | error
  deriving DecidableEq

namespace Status

def name : Status → Bytes
  | ok => ascii "OK"
  | error => ascii "ERROR"

/-- The first line of a response. -/
def line (status : Status) : Bytes := ascii "GNTP/1.0 -" ++ status.name ++ ascii " NONE"

end Status

/-- Who answers: the values of the origin headers. -/
structure Origin where
  machineName : Bytes := []
  softwareName : Bytes := []
  softwareVersion : Bytes := []
  platformName : Bytes := []
  platformVersion : Bytes := []
  deriving DecidableEq

namespace Origin

/-- This software on a machine. -/
def ofMachine (machineName platformName platformVersion : Bytes) : Origin where
  machineName
  softwareName := ascii "gntpd"
  softwareVersion := ascii "1.0.0"
  platformName
  platformVersion

/-- The origin headers in the order in which they are sent. -/
def entries (o : Origin) : List (Bytes × Bytes) := [
  (ascii "Origin-Machine-Name", o.machineName),
  (ascii "Origin-Software-Name", o.softwareName),
  (ascii "Origin-Software-Version", o.softwareVersion),
  (ascii "Origin-Platform-Name", o.platformName),
  (ascii "Origin-Platform-Version", o.platformVersion)]

end Origin

structure Response where
  status : Status
  headers : Headers := {}
  deriving DecidableEq

namespace Response

/-- A value on one line: a line break inside it would end the header early. -/
def oneLine (value : Bytes) : Bytes :=
  value.map fun b => if b = Bytes.cr ∨ b = Bytes.lf then 0x20 else b

/-- Gives a header a value, on one line. -/
def addHeader (r : Response) (key value : Bytes) : Response :=
  { r with headers := r.headers.set key (oneLine value) }

/-- Adds some headers, one after the other. -/
def addHeaders (r : Response) (entries : List (Bytes × Bytes)) : Response :=
  entries.foldl (fun r (key, value) => r.addHeader key value) r

def addOrigin (r : Response) (origin : Origin) : Response := r.addHeaders origin.entries

@[simp] theorem status_addHeader (r : Response) (key value : Bytes) :
    (r.addHeader key value).status = r.status := rfl

@[simp] theorem status_addHeaders (r : Response) (entries : List (Bytes × Bytes)) :
    (r.addHeaders entries).status = r.status := by
  induction entries generalizing r with
  | nil => rfl
  | cons entry entries ih => exact (ih _).trans (status_addHeader r entry.1 entry.2)

@[simp] theorem status_addOrigin (r : Response) (origin : Origin) :
    (r.addOrigin origin).status = r.status := status_addHeaders ..

def actionKey : Bytes := ascii "Response-Action"

def subscriptionKey : Bytes := ascii "Subscription-TTL"

def codeKey : Bytes := ascii "Error-Code"

def descriptionKey : Bytes := ascii "Error-Description"

/-- Accepts a request. A subscription is valid for 300 seconds. -/
def ok (action : MessageType) : Response :=
  let r := ({ status := .ok } : Response).addHeader actionKey action.name
  if action = .subscribe then r.addHeader subscriptionKey (ascii "300") else r

@[simp] theorem status_ok (action : MessageType) : (ok action).status = .ok := by
  cases action <;> rfl

def error (code : ErrorCode) (description : Bytes) : Response :=
  (({ status := .error } : Response).addHeader codeKey (Decimal.ofNat code.value)).addHeader
    descriptionKey description

/-- Refuses a request because of a failure. A rejection is told with its own code; that something
could not be decrypted is told without details; everything else is an internal error. -/
def ofReport : Report → Response
  | .rejection code [] => error code code.name
  | .rejection code detail => error code detail
  | .fault .decryption _ => error .invalidRequest (ascii "Unable to decrypt message")
  | .fault kind text => error .internalServerError (Report.fault kind text).message

@[simp] theorem status_ofReport (report : Report) : (ofReport report).status = .error := by
  unfold ofReport
  split <;> rfl

/-- A header on a line of its own. -/
def headerLine (entry : Bytes × Bytes) : Bytes :=
  entry.1 ++ ascii ": " ++ entry.2 ++ Bytes.crlf

/-- The bytes that are sent. -/
def render (r : Response) : Bytes :=
  r.status.line ++ Bytes.crlf ++ r.headers.entries.flatMap headerLine ++ Bytes.crlf

/-- The lines of a text, without their line feeds. -/
def linesOf (text : Bytes) : List Bytes :=
  let fields := Bytes.splitOn Bytes.lf text
  if fields.getLast? = some [] then fields.dropLast else fields

/-- Reads header lines up to the first blank line. -/
def parseHeaders (h : Headers) : List Bytes → Except Rejection Headers
  | [] => .ok h
  | line :: rest =>
    if Bytes.dropFinalCr line = [] then .ok h
    else do
      let (_, h) ← h.record (Bytes.dropFinalCr line)
      parseHeaders h rest

def parse (text : Bytes) : Except Rejection Response :=
  match linesOf text with
  | [] => .error .emptyResponse
  | first :: rest =>
    let line := Bytes.trim first
    if line = Status.ok.line then do return { status := .ok, headers := ← parseHeaders {} rest }
    else if line = Status.error.line then do
      return { status := .error, headers := ← parseHeaders {} rest }
    else .error (.badStatusLine line)

end Response

end Gntp
