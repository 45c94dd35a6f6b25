import Courier.Json.Writer
import Courier.Message.Failure
import Courier.Supply

/-!
# Envelopes

The body of every message: a topic, with an id, a time and a payload that may each be missing. A
payload that is the JSON null is present. `Envelope.stamp` is the one place where a missing id and a
missing time are filled in.
-/

namespace Courier

structure Envelope where
  id : Option String := none
  /-- POSIX time as text. -/
  timestamp : Option String := none
  topic : String
  payload : Option Json.Value := none

namespace Envelope

def ident (e : Envelope) : String := e.id.getD ""

def reply (e : Envelope) (payload : Option Json.Value := none) : Envelope :=
  { e with payload := payload }

/-- A missing id and a missing time are drawn. -/
def stamp (e : Envelope) (supply : Supply) : Envelope × Supply :=
  let (id, supply) := match e.id with
    | some id => (id, supply)
    | none => supply.drawId
  let (time, supply) := match e.timestamp with
    | some time => (time, supply)
    | none => supply.drawTime
  ({ e with id := some id, timestamp := some time }, supply)

/-- The fields of the body in the order in which they are written. -/
def fields (e : Envelope) : List (String × Json.Value) :=
  (e.id.toList.map fun id => ("id", .string id))
    ++ (e.timestamp.toList.map fun time => ("timestamp", .string time))
    ++ ("topic", .string e.topic) :: e.payload.toList.map fun payload => ("payload", payload)

def render (e : Envelope) : List Char := Json.renderObject e.fields

end Envelope

end Courier
