import Gntp.Access
import Gntp.Payload
import Gntp.Request

/-! Reading a request phase by phase. Each step takes something off the input and tells what is
to be read next, until the request is complete. A step that fails leaves the reading where it
was, without what it took. -/

namespace Gntp

/-- What the reading of a request depends on besides the input. -/
structure Gate where
  suite : Suite
  keyring : Keyring := {}
  policy : Policy := .reject
  /-- The time, in seconds since 1970. -/
  now : Int := 0

structure Reading where
  phase : Phase := .requestLine
  inbound : Inbound
  store : Store
  request : Request := {}
  sealing : Sealing := .clear
  /-- The headers of the notification type or resource that is being read. -/
  block : Headers := {}
  /-- How many notification types are declared. -/
  typeCount : Nat := 0
  deriving DecidableEq

namespace Reading

open Gntp.Action

def onInbound {α : Type} (action : Action Inbound α) : Action Reading α :=
  fun r => match action r.inbound with
    | .ok a inbound => .ok a { r with inbound }
    | .error failure inbound => .error failure { r with inbound }

/-- Takes the next line; the request is not over. -/
def nextLine : Action Reading Bytes := do
  match ← onInbound Inbound.takeLine with
  | some line => pure line
  | none => throw (.truncated (.during (← get).phase))

/-- Notes the resource that a header value refers to, if it refers to one. -/
def noteReference (value : Bytes) : Action Reading Unit := do
  match ← check (Headers.reference? value) with
  | none => pure ()
  | some identifier =>
    modify fun r => { r with
      request := { r.request with attachments := r.request.attachments.refer identifier } }

/-- Takes note of the request line and of what is granted to its sender. -/
def grant (gate : Gate) (line : RequestLine) (access : Access) : Action Reading Unit := do
  modify fun r => { r with
    request := { r.request with
      messageType := line.messageType
      ignored := access = .ignored
      receivedAt := gate.now } }
  if line.cipher ≠ .none then
    let sealing ← check (Access.sealing line access.key)
    modify fun r => { r with sealing }

/-- Takes the sealed headers that follow the request line, if a sealing is in force. -/
def openHeaders (gate : Gate) : Action Reading Unit := do
  onInbound (Inbound.takeSealedBlock gate.suite (← get).sealing)

def decide (gate : Gate) (line : RequestLine) : Action Reading Access :=
  match Access.decide gate.suite gate.keyring gate.policy line with
  | .ok access => pure access
  | .error failure => throw failure

/-- Takes the request line, decides on it, and opens the headers that follow. -/
def readRequestLine (gate : Gate) : Action Reading Phase := do
  match ← onInbound Inbound.takeLine with
  | none => throw (.truncated .beforeRequestLine)
  | some text =>
    let line ← check (RequestLine.parse text)
    let access ← decide gate line
    grant gate line access
    openHeaders gate
    pure .requestHeaders

/-- What follows the last header block before the resources. -/
def afterTypes (r : Reading) : Phase :=
  if r.request.attachments.hasPending then .resourceHeaders else .complete

/-- Reads a count of at most nine digits. -/
def parseTypeCount (text : Bytes) : Except Rejection Nat :=
  if Decimal.isNumeral text ∧ text.length < 10 then .ok (Decimal.value text)
  else .error (.badTypeCount text)

def recordRequestHeader (line : Bytes) : Action Reading Phase := do
  let ((_, value), headers) ← check ((← get).request.headers.record line)
  modify fun r => { r with request := { r.request with headers } }
  noteReference value
  pure .requestHeaders

/-- Decides what follows the request headers. -/
def closeRequestHeaders : Action Reading Phase := do
  if (← get).request.messageType ≠ .register then
    pure (← get).afterTypes
  else
    let typeCount ← check
      (parseTypeCount ((← get).request.headers.getD Key.notificationsCount []))
    modify fun r => { r with typeCount }
    if typeCount = 0 then
      pure (← get).afterTypes
    else
      modify fun r => { r with block := {} }
      pure .typeHeaders

/-- Takes note of a line of the request headers. Blank lines before the first header are skipped. -/
def requestHeader (line : Bytes) : Action Reading Phase := do
  if line ≠ [] then recordRequestHeader line
  else if (← get).request.headers.isEmpty then pure .requestHeaders
  else closeRequestHeaders

def readRequestHeader : Action Reading Phase := nextLine >>= requestHeader

/-- Adds a header to the block of a notification type. -/
def recordTypeHeader (line : Bytes) : Action Reading Phase := do
  let ((_, value), block) ← check ((← get).block.record line)
  modify fun r => { r with block }
  noteReference value
  pure .typeHeaders

/-- Adds the notification type that the block declares. -/
def closeType : Action Reading Phase := do
  let type ← check (TypeDeclaration.ofHeaders (← get).block)
  modify fun r => { r with
    request := { r.request with types := r.request.types ++ [type] }
    block := {} }
  let r ← get
  pure (if r.request.types.length < r.typeCount then .typeHeaders else r.afterTypes)

/-- Takes note of a line of the headers of a notification type. -/
def typeHeader (line : Bytes) : Action Reading Phase :=
  if line ≠ [] then recordTypeHeader line else closeType

def readTypeHeader : Action Reading Phase := nextLine >>= typeHeader

/-- Takes note of a line of the headers of a resource. Blank lines before the first header are
skipped. -/
def resourceHeader (line : Bytes) : Action Reading Phase := do
  if line ≠ [] then
    let (_, block) ← check ((← get).block.record line)
    modify fun r => { r with block }
    pure .resourceHeaders
  else pure (if (← get).block.isEmpty then .resourceHeaders else .resourceData)

def readResourceHeader : Action Reading Phase := nextLine >>= resourceHeader

/-- Refuses the headers of a resource that has come already. -/
def checkNew (r : Reading) : Except Rejection Unit :=
  match r.block.get? Payload.identifierKey with
  | none => .ok ()
  | some identifier =>
    if (r.request.attachments.find? identifier).isSome then
      .error (.duplicateResource identifier)
    else .ok ()

/-- What a payload is received from and into. That of an ignored request never reaches the
store. -/
def receiving (r : Reading) : Receiving where
  inbound := r.inbound
  store := if r.request.ignored then .discard else r.store

/-- Goes on from what the receiving of a payload has left. -/
def resume (r : Reading) (left : Receiving) : Reading := { r with
  inbound := left.inbound
  store := if r.request.ignored then r.store else left.store }

def receive (suite : Suite) : Action Reading Resource := fun r =>
  match Payload.receive suite r.sealing r.block r.receiving with
  | .ok resource left => .ok resource (r.resume left)
  | .error failure left => .error failure (r.resume left)

/-- Adds a resource that has come. -/
def attach (resource : Resource) : Action Reading Phase := do
  let attachments ← check ((← get).request.attachments.attach resource)
  modify fun r => { r with request := { r.request with attachments }, block := {} }
  pure (← get).afterTypes

/-- Takes the payload of a resource and the blank line behind it. -/
def readResourceData (suite : Suite) : Action Reading Phase := do
  check (← get).checkNew
  attach (← receive suite)

/-- Takes what a phase is about and tells the phase after it. -/
def read (gate : Gate) : Phase → Action Reading Phase
  | .requestLine => readRequestLine gate
  | .requestHeaders => readRequestHeader
  | .typeHeaders => readTypeHeader
  | .resourceHeaders => readResourceHeader
  | .resourceData => readResourceData gate.suite
  | .complete => throw (.rejected (.readAgain .complete))
  | .answered => throw (.rejected (.readAgain .answered))

/-- Takes what comes next and tells what comes after it. -/
def step (gate : Gate) : Action Reading Phase := do read gate (← get).phase

/-- Takes a step and goes to the phase after it. -/
def advance (gate : Gate) : Action Reading Unit := do
  let phase ← step gate
  modify fun r => { r with phase }

end Reading

end Gntp
