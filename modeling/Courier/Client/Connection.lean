import Courier.Server.Session

/-!
# Connections

A connection joins a client to a session. What the client sends is read by the session, and what the
session writes stands in the client's inbox until it is read; either side may read it in parts. A
client checks the tokens of a request before it sends anything, so that a refused request leaves the
connection as it was.
-/

namespace Courier

open Text

def Event.wire (e : Event) : Bytes := (e.response?.map Response.encode).getD []

structure Passage where
  parts : Bytes → List Bytes
  flatten_parts : ∀ bs, (parts bs).flatten = bs

def Passage.whole : Passage := ⟨fun bs => [bs], fun bs => by simp⟩

structure Connection where
  session : Session
  /-- What the session has written and the client has not read. -/
  inbox : Bytes := []
  isFinished : Bool := false

namespace Connection

def «open» (server : Server) (state : ServerState) : Connection × ServerState :=
  let (events, session, state) := Session.start server {} false state
  ({ session := session, inbox := events.flatMap Event.wire }, state)

def advance (server : Server) (arrival : Arrival) (c : Connection) (state : ServerState) :
    Connection × ServerState :=
  if c.session.isOpen then
    let (events, session, state) := Session.resume server arrival c.session state
    ({ c with session := session, inbox := c.inbox ++ events.flatMap Event.wire }, state)
  else (c, state)

def hear (server : Server) : List Bytes → Connection → ServerState → Connection × ServerState
  | [], c, state => (c, state)
  | part :: parts, c, state =>
      let (c, state) := c.advance server (.bytes part) state
      hear server parts c state

def sendBytesOver (up : Passage) (server : Server) (bs : Bytes) (c : Connection)
    (state : ServerState) : Except Failure Unit × Connection × ServerState :=
  if bs.isEmpty then (.ok (), c, state)
  else if c.session.isOpen && !c.isFinished then
    let (c, state) := hear server (up.parts bs) c state
    (.ok (), c, state)
  else (.error (.transport "Broken pipe (os error 32)"), c, state)

def sendBytes (server : Server) (bs : Bytes) (c : Connection) (state : ServerState) :
    Except Failure Unit × Connection × ServerState :=
  c.sendBytesOver .whole server bs state

/-- Waits for more to come from a session that has nothing to say: all that can happen is that its
time is up. -/
def await (server : Server) (c : Connection) (state : ServerState) : Connection × ServerState :=
  if server.settings.readTimeout.isSome then c.advance server .expired state else (c, state)

/-- Takes a response from what has been read, reading the next part whenever there is none; what is
left then, read or not. -/
def listen (buffer : Bytes) : List Bytes → Except Failure (Option Response) × Bytes
  | [] => Decoder.unlimited.takeResponse buffer
  | part :: parts =>
      match Decoder.unlimited.takeResponse buffer with
      | (.ok none, rest) => listen (rest ++ part) parts
      | (result, rest) => (result, rest ++ (part :: parts).flatten)

def receiveOver (down : Passage) (server : Server) (c : Connection) (state : ServerState) :
    Except Failure Response × Connection × ServerState :=
  match listen [] (down.parts c.inbox) with
  | (.ok (some response), rest) => (.ok response, { c with inbox := rest }, state)
  | (.error f, rest) => (.error f, { c with inbox := rest }, state)
  | (.ok none, rest) =>
      let (c, state) := { c with inbox := rest }.await server state
      (.error (.transport "connection closed before a response arrived"), c, state)

def receive (server : Server) (c : Connection) (state : ServerState) :
    Except Failure Response × Connection × ServerState :=
  c.receiveOver .whole server state

def sendOver (up down : Passage) (server : Server) (r : Request) (c : Connection)
    (state : ServerState) : Except Failure Response × Connection × ServerState :=
  match (checkToken "verb" r.verb).bind fun _ => checkToken "version" r.version with
  | .error f => (.error f, c, state)
  | .ok () =>
      match c.sendBytesOver up server r.encode state with
      | (.error f, c, state) => (.error f, c, state)
      | (.ok (), c, state) => c.receiveOver down server state

def send (server : Server) (r : Request) (c : Connection) (state : ServerState) :
    Except Failure Response × Connection × ServerState :=
  c.sendOver .whole .whole server r state

def requestOver (up down : Passage) (server : Server) (verb topic : String)
    (payload : Option Json.Value) (c : Connection) (state : ServerState) :
    Except Failure Response × Connection × ServerState :=
  let (r, supply) :=
    Request.stamp { verb := verb, envelope := { topic := topic, payload := payload } } state.supply
  c.sendOver up down server r { state with supply := supply }

def request (server : Server) (verb topic : String) (payload : Option Json.Value) (c : Connection)
    (state : ServerState) : Except Failure Response × Connection × ServerState :=
  c.requestOver .whole .whole server verb topic payload state

def ping (server : Server) (topic : String) (payload : Option Json.Value) :=
  request server Verb.ping topic payload

def execute (server : Server) (topic : String) (payload : Option Json.Value) :=
  request server Verb.execute topic payload

def poll (server : Server) (topic : String) (id : Option String) :=
  request server Verb.poll topic (id.map fun id => .ofFields [("id", .string id)])

def finish (server : Server) (c : Connection) (state : ServerState) : Connection × ServerState :=
  let (c, state) := c.advance server .finished state
  ({ c with isFinished := true }, state)

end Connection

end Courier
