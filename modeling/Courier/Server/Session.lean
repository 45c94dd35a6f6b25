import Courier.Server.Basic

/-!
# Sessions

A session takes frames from one stream and answers each before it reads on, so that it waits only
with less than a frame at hand. It closes after its one answer if it is single-shot, on a frame that
is too large, when an answer cannot be written, and on whatever ends the waiting without bytes.

A run of a session is the list of what happened, divided by its reads: before the first, after the
first, and so on (`Session.run`).
-/

namespace Courier

open Text Wire

/-- What a wait for bytes ends with. -/
inductive Arrival where
  | bytes (bs : Bytes)
  | finished
  | failed
  | expired
  | stopping
  /-- Nobody is left who could ask the server to stop. -/
  | abandoned
deriving DecidableEq, Repr

inductive WriteFault where
  | refused
  /-- Without taking a byte. -/
  | nothing
  | stalled
deriving DecidableEq, Repr

/-- How often a write that fails is tried. -/
def WriteFault.attempts : WriteFault → Nat
  | .refused => 1
  | .nothing => 1
  -- once more when the time is up
  | .stalled => 2

structure Outlet where
  /-- The number of responses it takes yet, if there is an end to it. -/
  room : Option Nat := none
  fault : WriteFault := .refused
deriving DecidableEq, Repr

def Outlet.spend? (o : Outlet) : Option Outlet :=
  match o.room with
  | none => some o
  | some 0 => none
  | some (n + 1) => some { o with room := some n }

inductive Event where
  | wrote (response : Response)
  | writeFailed (fault : WriteFault)
  | closed

def Event.response? : Event → Option Response
  | .wrote response => some response
  | _ => none

structure Session where
  buffer : Bytes := []
  outlet : Outlet := {}
  isOpen : Bool := true

namespace Session

def close (session : Session) (state : ServerState) : List Event × Session × ServerState :=
  ([.closed], { session with isOpen := false },
    { state with metrics := state.metrics.closeSession })

/-- Closes behind a last answer. -/
def finishWith (response : Response) (session : Session) (state : ServerState) :
    List Event × Session × ServerState :=
  let (events, session, state) := session.close state
  match session.outlet.spend? with
  | none =>
      -- the peer takes no more: the answer has been given and counted, and is lost
      let fault := session.outlet.fault
      (List.replicate fault.attempts (.writeFailed fault) ++ events, session, state)
  | some outlet => (.wrote response :: events, { session with outlet := outlet }, state)

/-- Answers the frames in the buffer, until none is complete or the session closes. -/
def drain (server : Server) (session : Session) (state : ServerState) :
    List Event × Session × ServerState :=
  match h : server.decoder.cut session.buffer with
  | (.more, rest) => ([], { session with buffer := rest }, state)
  | (.tooLarge limit, rest) =>
      let (response, state) := Server.refuse (.payloadTooLarge limit) state
      finishWith response { session with buffer := rest } state
  | (.frame f, rest) =>
      let (response, state) := server.answerFrame f state
      match server.settings.sessionMode with
      | .singleShot => finishWith response { session with buffer := rest } state
      | .persistent =>
          match session.outlet.spend? with
          | none => finishWith response { session with buffer := rest } state
          | some outlet =>
              -- a frame is never empty, so that the buffer gets shorter
              have := Decoder.length_cut_frame h
              let (events, session, state) :=
                drain server { session with buffer := rest, outlet := outlet } state
              (.wrote response :: events, session, state)
termination_by session.buffer.length

def start (server : Server) (outlet : Outlet) (stopping : Bool) (state : ServerState) :
    List Event × Session × ServerState :=
  let state := { state with metrics := state.metrics.openSession }
  -- an empty buffer has nothing to answer, so that a server that stops answers nothing here
  let (events, session, state) := drain server { outlet := outlet } state
  if stopping && session.isOpen then
    let (more, session, state) := session.close state
    (events ++ more, session, state)
  else (events, session, state)

def resume (server : Server) (arrival : Arrival) (session : Session) (state : ServerState) :
    List Event × Session × ServerState :=
  match arrival with
  | .bytes bs => drain server { session with buffer := session.buffer ++ bs } state
  | _ => session.close state

/-- Goes on through the given arrivals, behind which the peer sends no more; what happened after
each. A session that has closed waits for nothing. -/
def follow (server : Server) (session : Session) (state : ServerState) :
    List Arrival → List (List Event) × ServerState
  | [] =>
      if session.isOpen then
        let (events, _, state) := resume server .finished session state
        ([events], state)
      else ([], state)
  | arrival :: rest =>
      if session.isOpen then
        let (events, session, state) := resume server arrival session state
        let (later, state) := session.follow server state rest
        (events :: later, state)
      else ([], state)

/-- A whole session: what happened before the first read, after it, and so on. -/
def run (server : Server) (outlet : Outlet) (stopping : Bool) (arrivals : List Arrival)
    (state : ServerState) : List (List Event) × ServerState :=
  let (events, session, state) := start server outlet stopping state
  let (later, state) := session.follow server state arrivals
  (events :: later, state)

end Session

end Courier
