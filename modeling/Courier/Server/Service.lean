import Courier.Client.Connection
import Courier.Files.Basic

/-!
# A server at work

A service is a server with its state and its connections, each known by a number. Stopping it
closes every session and admits no further connection.
-/

namespace Courier

open Text

structure Service where
  server : Server
  state : ServerState
  isRunning : Bool := true
  connections : List (Nat × Connection) := []

namespace Service

def get? (s : Service) (n : Nat) : Option Connection :=
  (s.connections.find? (·.1 == n)).map (·.2)

def put (s : Service) (n : Nat) (c : Connection) (state : ServerState) : Service :=
  { s with state := state, connections := (n, c) :: s.connections.filter (·.1 != n) }

def drop (s : Service) (n : Nat) : Service :=
  match s.get? n with
  | none => s
  | some c =>
      { s with
        state := (c.finish s.server s.state).2
        connections := s.connections.filter (·.1 != n) }

/-- Opens a connection under a number; one that has it is dropped. -/
def connect (s : Service) (n : Nat) : Except Failure Unit × Service :=
  if s.isRunning then
    let s := s.drop n
    let (c, state) := Connection.open s.server s.state
    (.ok (), s.put n c state)
  else (.error (.transport OsError.noEntry.message), s)

/-- Lets a client come that sends bytes, closes its half and reads to the end; the responses to it.
Without bytes it is one that only looks whether somebody listens. -/
def visit (s : Service) (bs : Bytes) : List Response × Service :=
  let arrivals := if bs.isEmpty then [] else [.bytes bs]
  let (events, state) := Session.run s.server {} false arrivals s.state
  (events.flatten.filterMap Event.response?, { s with state := state })

def onConnection? {α : Type} (s : Service) (n : Nat)
    (act : Connection → ServerState → α × Connection × ServerState) : Option (α × Service) :=
  (s.get? n).map fun c =>
    let (a, c, state) := act c s.state
    (a, s.put n c state)

def advanceAll (server : Server) (arrival : Arrival) (state : ServerState) :
    List (Nat × Connection) → List (Nat × Connection) × ServerState
  | [] => ([], state)
  | (n, c) :: rest =>
      let (c, state) := c.advance server arrival state
      let (rest, state) := advanceAll server arrival state rest
      ((n, c) :: rest, state)

def stop (s : Service) : Service :=
  let (connections, state) := advanceAll s.server .stopping s.state s.connections
  { s with state := state, connections := connections, isRunning := false }

end Service

end Courier
