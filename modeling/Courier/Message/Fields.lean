import Courier.Json.Kind
import Courier.Message.Envelope

/-!
# Envelopes from JSON values

The fields of an object are taken in the order of their keys. `_id` is an older name of `id`; a
field may come once under all its names. A null id or time is a missing one, and a time may be given
as a number, whose text it becomes.
-/

namespace Courier

open Json

inductive EnvelopeField where
  | id
  | timestamp
  | topic
  | payload
deriving DecidableEq, Repr

namespace EnvelopeField

def ofName? (name : String) : Option EnvelopeField :=
  if name = "id" ∨ name = "_id" then some .id
  else if name = "timestamp" then some .timestamp
  else if name = "topic" then some .topic
  else if name = "payload" then some .payload
  else none

def name : EnvelopeField → String
  | .id => "id"
  | .timestamp => "timestamp"
  | .topic => "topic"
  | .payload => "payload"

end EnvelopeField

structure EnvelopeDraft where
  id : Option (Option String) := none
  timestamp : Option (Option String) := none
  topic : Option String := none
  payload : Option Value := none

namespace EnvelopeDraft

def has (d : EnvelopeDraft) : EnvelopeField → Bool
  | .id => d.id.isSome
  | .timestamp => d.timestamp.isSome
  | .topic => d.topic.isSome
  | .payload => d.payload.isSome

/-- The envelope of the fields read; only the topic must be among them. -/
def finish (d : EnvelopeDraft) : Except EnvelopeFlaw Envelope :=
  match d.topic with
  | some topic => .ok ⟨d.id.join, d.timestamp.join, topic, d.payload⟩
  | none => .error (.missingField "topic")

end EnvelopeDraft

def textOfValue : Value → Except EnvelopeFlaw String
  | .string s => .ok s
  | v => .error (.wrongKind v "a string")

def textOrNull : Value → Except EnvelopeFlaw (Option String)
  | .null => .ok none
  | v => (textOfValue v).map some

/-- A time: a text, the text of a number, or nothing for null. -/
def timeOfValue : Value → Except EnvelopeFlaw (Option String)
  | .null => .ok none
  | .string s => .ok (some s)
  | .number n => .ok (some (String.ofList n.render))
  | _ => .error .badTimestamp

namespace EnvelopeDraft

def set (d : EnvelopeDraft) (field : EnvelopeField) (v : Value) :
    Except EnvelopeFlaw EnvelopeDraft :=
  match field with
  | .id => (textOrNull v).map fun id => { d with id := some id }
  | .timestamp => (timeOfValue v).map fun time => { d with timestamp := some time }
  | .topic => (textOfValue v).map fun topic => { d with topic := some topic }
  | .payload => .ok { d with payload := some v }

/-- The field with the given name, if it has not been read. -/
def claim (d : EnvelopeDraft) (name : String) : Except EnvelopeFlaw EnvelopeField :=
  match EnvelopeField.ofName? name with
  | none => .error (.unknownField name)
  | some field => if d.has field then .error (.duplicateField field.name) else .ok field

def addAll (d : EnvelopeDraft) : List (String × Value) → Except EnvelopeFlaw EnvelopeDraft
  | [] => .ok d
  | (name, v) :: rest =>
      -- the name is settled before the value is looked at
      match d.claim name with
      | .error flaw => .error flaw
      | .ok field =>
          match d.set field v with
          | .error flaw => .error flaw
          | .ok d => d.addAll rest

end EnvelopeDraft

def Envelope.ofFields (fields : List (String × Value)) : Except EnvelopeFlaw Envelope :=
  match EnvelopeDraft.addAll {} fields with
  | .error flaw => .error flaw
  | .ok d => d.finish

end Courier
