import Courier.Verb.Table

/-!
# The verbs of every server

`PING` gives back what it was sent. `EXECUTE` puts the request into the queue, where the work waits
for whoever does it. `POLL` reports on the queue and changes nothing.
-/

namespace Courier.Verb

def ping : String := "PING"

def execute : String := "EXECUTE"

def poll : String := "POLL"

def handlePing : Handler := fun r q => (.ok (.ok r r.payload), q)

def admissionPayload : Admission → Json.Value
  | .added depth =>
      .ofFields [("status", .string EntryStatus.pending.name), ("depth", .ofNat depth)]
  | .existing status depth =>
      .ofFields
        [("status", .string status.name), ("depth", .ofNat depth), ("duplicate", .bool true)]

def handleExecute : Handler := fun r q =>
  let (admission, q) := q.enqueue (.pending r)
  (.ok (.reply r .ok "Accepted" (some (admissionPayload admission))), q)

def wantedId? (r : Request) : Option String :=
  r.payload.bind fun p => (p.field? "id").bind Json.Value.string?

/-- The report on the queue: how many entries there are, how many of the topic of the request, and,
if its payload names an id, the entry of that id or null. All of it is read off one snapshot. -/
def queueReport (r : Request) (q : Queue) : Json.Value :=
  let entries := q.entries
  let ofTopic := entries.filter (·.topic == r.topic)
  let entry (id : String) := ((entries.find? (·.id == id)).map Entry.summary).getD .null
  .ofFields ([("depth", .ofNat entries.length), ("topic_depth", .ofNat ofTopic.length)]
    ++ (wantedId? r).toList.map fun id => ("entry", entry id))

/-- What a report counts and finds in its snapshot is what the queue answers itself. -/
theorem queueReport_eq (r : Request) (q : Queue) :
    queueReport r q =
      .ofFields ([("depth", .ofNat q.length), ("topic_depth", .ofNat (q.topicLength r.topic))] ++
        (wantedId? r).toList.map fun id =>
          ("entry", ((q.get? id).map Entry.summary).getD .null)) := by
  rw [Queue.topicLength, List.countP_eq_length_filter]
  rfl

def handlePoll : Handler := fun r q => (.ok (.ok r (some (queueReport r q))), q)

end Courier.Verb

namespace Courier

def Table.builtin : Table :=
  Table.empty.registerAll
    [(Verb.ping, Verb.handlePing), (Verb.execute, Verb.handleExecute), (Verb.poll, Verb.handlePoll)]

end Courier
