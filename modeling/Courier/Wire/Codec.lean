import Courier.Json.Reader
import Courier.Message.Fields
import Courier.Message.Request
import Courier.Wire.Frame
import Courier.Wire.Head

/-!
# Messages as frames

A message is written as its head line, an empty line, its envelope as JSON, and an empty line. A
frame is read head first: of two faults, that of the head line is the one reported.
-/

namespace Courier

open Text Wire

namespace Wire

def frameBytes (head : List Char) (e : Envelope) : Bytes :=
  Utf8.encode head ++ [10, 10] ++ Utf8.encode e.render ++ [10, 10]

def readBody (body : Bytes) : Except Failure Envelope :=
  if body.all isBlankByte then .error (.badRequest .noBody)
  else match Json.Value.read body with
    | .error e => .error (.badRequest (.bodyNotJson e))
    | .ok (.object fields) =>
        match Envelope.ofFields fields with
        | .error flaw => .error (.badRequest (.badEnvelope flaw))
        | .ok e => .ok e
    | .ok _ => .error (.badRequest .bodyNotObject)

namespace Frame

def headText (f : Frame) : Except Failure (List Char) :=
  match Utf8.decode? f.head with
  | some cs => .ok cs
  | none => .error (.badRequest .headNotText)

def envelope (f : Frame) : Except Failure Envelope :=
  if f.isSeparated then readBody f.body else .error (.badRequest .noSeparator)

def toRequest (f : Frame) : Except Failure Request := do
  let (verb, version) ← readRequestLine (← f.headText)
  let envelope ← f.envelope
  return ⟨verb, version, envelope⟩

/-- The frame as a response, which must have an id. -/
def toResponse (f : Frame) : Except Failure Response := do
  let (version, status, reason) ← readStatusLine (← f.headText)
  let envelope ← f.envelope
  if envelope.id.isNone then throw (.badRequest .noResponseId)
  return ⟨version, status, reason, envelope⟩

end Frame

end Wire

def Request.encode (r : Request) : Bytes :=
  frameBytes (requestLine r.verb r.version) r.envelope

def Response.encode (r : Response) : Bytes :=
  frameBytes (statusLine r.version r.status r.reason) r.envelope

end Courier
