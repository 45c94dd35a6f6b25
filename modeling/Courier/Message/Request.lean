import Courier.Message.Envelope
import Courier.Message.Token

/-!
# Requests and responses

A request names a verb, a response a status and a reason. Whatever answers a request carries its
version and repeats its id, time and topic.
-/

namespace Courier

structure Request where
  verb : String
  version : String := Version.default
  envelope : Envelope

namespace Request

def ident (r : Request) : String := r.envelope.ident

def topic (r : Request) : String := r.envelope.topic

def payload (r : Request) : Option Json.Value := r.envelope.payload

def stamp (r : Request) (supply : Supply) : Request × Supply :=
  let (envelope, supply) := r.envelope.stamp supply
  ({ r with envelope := envelope }, supply)

end Request

structure Response where
  version : String
  status : Status
  reason : String
  envelope : Envelope

def Failure.payload (f : Failure) : Json.Value :=
  .ofFields [("code", .string f.code.name), ("reason", .string f.message)]

namespace Response

def reply (r : Request) (status : Status) (reason : String) (payload : Option Json.Value) :
    Response :=
  ⟨r.version, status, reason, r.envelope.reply payload⟩

def ok (r : Request) (payload : Option Json.Value) : Response := reply r .ok "OK" payload

/-- A report of a failure, in the given version, with the id, time and topic of an envelope. -/
def failure (version : String) (envelope : Envelope) (f : Failure) : Response :=
  ⟨version, .error, f.code.phrase, envelope.reply (some f.payload)⟩

def failureFor (r : Request) (f : Failure) : Response := failure r.version r.envelope f

/-- The envelope of a report that answers no request: its topic names the code, and its id and time
are drawn. -/
def unboundEnvelope (f : Failure) (supply : Supply) : Envelope × Supply :=
  Envelope.stamp { topic := "error." ++ f.code.topicName } supply

/-- A report of a failure before any request could be read. -/
def unbound (f : Failure) (supply : Supply) (version : String := Version.default) :
    Response × Supply :=
  let (envelope, supply) := unboundEnvelope f supply
  (failure version envelope f, supply)

def isOk (r : Response) : Bool := r.status.isOk

def ident (r : Response) : String := r.envelope.ident

def topic (r : Response) : String := r.envelope.topic

def payload (r : Response) : Option Json.Value := r.envelope.payload

end Response

end Courier
