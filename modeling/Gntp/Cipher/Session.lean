import Gntp.Cipher.Context
import Gntp.Sealing

/-! A session with a cipher: parameters are set once, and every text after that is encrypted or
decrypted afresh under them. Texts come as byte strings, or through a source and a drain that
may fail. -/

namespace Gntp

namespace Direction

/-- A text that cannot be begun. -/
def unavailable : Direction → CipherFault
  | encrypt => .sealUnavailable
  | decrypt => .unsealUnavailable

/-- A text that cannot be gone on with. -/
def interrupted : Direction → CipherFault
  | encrypt => .blockNotSealed
  | decrypt => .blockNotUnsealed

/-- A text that cannot be brought to an end. -/
def unfinished : Direction → CipherFault
  | encrypt => .sealNotFinished
  | decrypt => .badPadding

end Direction

/-- Where the text to work on comes from. -/
inductive Source where
  /-- Delivers the text and then ends. -/
  | ready (text : Bytes)
  /-- Delivers the whole buffers of the text, and then fails at an attempt to read. -/
  | breaking (text : Bytes)
  /-- Had failed or ended before it was used. -/
  | spent
  deriving DecidableEq

namespace Source

/-- Fails at the first attempt to read, before anything was read. -/
def broken : Source := .breaking []

/-- How much is read at a time. -/
def bufferSize : Nat := 8192

/-- What one read after the other brings. -/
def pieces : Source → List Bytes
  | ready text => Bytes.chunks bufferSize text
  | breaking text => (Bytes.chunks bufferSize text).filter fun piece => piece.length = bufferSize
  | spent => []

/-- Whether the last read fails. -/
def breaks : Source → Bool
  | breaking _ => true
  | _ => false

end Source

/-- Where the outcome goes. -/
structure Drain where
  /-- Whether it has failed. -/
  failed : Bool := false
  /-- How many more bytes it takes, if it does not take all. -/
  room : Option Nat := none
  /-- How many more bytes it lets out when it is flushed, if not all that it holds back. -/
  outlet : Option Nat := none
  /-- What it has let out. -/
  written : Bytes := []
  /-- What it has taken since and still holds back. -/
  held : Bytes := []
  deriving DecidableEq

namespace Drain

def ready : Drain := {}

def spent : Drain := { failed := true }

/-- Refuses every byte. -/
def full : Drain := { room := some 0 }

/-- All that was put in. -/
def taken (drain : Drain) : Bytes := drain.written ++ drain.held

/-- Lets out what is held back. If there is more than can get out, the drain has failed then. -/
def flush (drain : Drain) : Drain :=
  match drain.outlet with
  | none => { drain with
      written := drain.written ++ drain.held
      held := [] }
  | some outlet => { drain with
      failed := drain.failed || outlet < drain.held.length
      outlet := some (outlet - drain.held.length)
      written := drain.written ++ drain.held.take outlet
      held := drain.held.drop outlet }

end Drain

/-- An action in a context, which is blank until a cipher is set up there. -/
abbrev InContext (α : Type) := EStateM CipherFault (Option CipherContext) α

namespace InContext

/-- Writes one piece. Nothing can fail if there is nothing to write. -/
def write (drain : Drain) (piece : Bytes) : InContext Drain :=
  let held := drain.held ++ piece
  match drain.room with
  | none => return { drain with held }
  | some room =>
    if piece.length ≤ room then
      return { drain with
        room := some (room - piece.length)
        held }
    else throw .unwritable

/-- Works on one piece after the other, and writes what comes of it before the next one. -/
def pump (work : Bytes → InContext Bytes) (drain : Drain) (pieces : List Bytes) : InContext Drain :=
  pieces.foldlM (fun drain piece => do write drain (← work piece)) drain

/-- Clears the context and sets it up for a text. -/
def setUp (suite : Suite) (sealing : Sealing) (direction : Direction) : InContext Unit := do
  set (none : Option CipherContext)
  if ¬ sealing.enabled then
    throw .cipherUnavailable
  match sealing.keyed? suite with
  | some block =>
    set (some ({
      direction, block
      size := sealing.cipher.blockSize
      mask := sealing.iv } : CipherContext))
  | none => throw direction.unavailable

/-- Works on a piece of the text. -/
def update (direction : Direction) (piece : Bytes) : InContext Bytes := do
  match ← get with
  | some context =>
    let (out, context) := context.update piece
    set (some context)
    return out
  | none => throw direction.interrupted

/-- Works on the last block. -/
def finish (direction : Direction) : InContext Bytes := do
  match (← get).bind CipherContext.finish? with
  | some tail => return tail
  | none => throw direction.unfinished

/-- Works on a text from its beginning to its end. -/
def process (suite : Suite) (sealing : Sealing) (direction : Direction) (source : Source)
    (drain : Drain) : InContext Drain := do
  setUp suite sealing direction
  let drain ← pump (update direction) drain source.pieces
  if source.breaks then
    throw .unreadable
  write drain (← finish direction)

/-- What an action returns. -/
def outcome {α : Type} (action : InContext α) (context? : Option CipherContext) :
    Except CipherFault α :=
  match action context? with
  | .ok a _ => .ok a
  | .error fault _ => .error fault

/-- The context after an action, whether it fails or not. -/
def reached {α : Type} (action : InContext α) (context? : Option CipherContext) :
    Option CipherContext :=
  match action context? with
  | .ok _ context? | .error _ context? => context?

end InContext

structure CipherSession where
  sealing : Option Sealing := none
  /-- What the last text that was worked on has left behind. -/
  context? : Option CipherContext := none
  /-- A note for the owner of the session; it does not change what the session does. -/
  mode : Direction := .encrypt

namespace CipherSession

def cipher (s : CipherSession) : Cipher := (s.sealing.getD .clear).cipher

/-- Sets the parameters. Parameters that do not fit leave the session as it was. -/
def initialize? (cipher : Cipher) (key iv : Bytes) (s : CipherSession) :
    Except ParameterFault CipherSession := do
  return { s with sealing := some (← Sealing.make cipher key iv) }

/-- The length of a random initialization vector for the cipher in force. -/
def freshIvLength (suite : Suite) (s : CipherSession) : Except CipherFault Nat :=
  if s.cipher.ivSize = 0 ∨ suite.random then .ok s.cipher.ivSize else .error .noRandomness

/-- Reads the source to its end and writes the outcome to the drain, which is flushed then; whether
it fails at that is not looked at. Without a cipher the source is copied, and one that cannot be
read has nothing to copy. -/
def work (suite : Suite) (s : CipherSession) (direction : Direction) (source : Source)
    (drain : Drain) : InContext Drain :=
  match s.sealing with
  | none => throw .notInitialized
  | some sealing =>
    if source = .spent ∨ drain.failed then throw .badStreamState
    else if sealing.enabled then
      Drain.flush <$> InContext.process suite sealing direction source drain
    else InContext.pump pure drain source.pieces

/-- The drain when the work is done. -/
def drained (suite : Suite) (s : CipherSession) (direction : Direction) (source : Source)
    (drain : Drain) : Except CipherFault Drain :=
  (s.work suite direction source drain).outcome s.context?

/-- What the drain has taken when the work is done. -/
def run (suite : Suite) (s : CipherSession) (direction : Direction) (source : Source)
    (drain : Drain) : Except CipherFault Bytes :=
  (s.drained suite direction source drain).map Drain.taken

/-- The session after the work, be it done or not. -/
def after (suite : Suite) (s : CipherSession) (direction : Direction) (source : Source)
    (drain : Drain) : CipherSession :=
  { s with context? := (s.work suite direction source drain).reached s.context? }

/-- Works on a byte string. -/
def runText (suite : Suite) (s : CipherSession) (direction : Direction) (text : Bytes) :
    Except CipherFault Bytes :=
  s.run suite direction (.ready text) .ready

end CipherSession

end Gntp
